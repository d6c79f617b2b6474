import TidyLines.Json.Token

/-!
# JSON values from their tokens

A builder takes tokens one by one.  It keeps the arrays and objects that are still open, the inner
one first, and what may come next.
-/

namespace TidyLines.Json

/-- An array or object that is still open. -/
inductive Frame where
  /-- An array with the items so far, the last one first. -/
  | items (reversed : List Json)
  /-- An object with the members so far, the last one first, and the name that awaits its value. -/
  | members (reversed : List (Option Text × Json)) (name : Option Text)

/-- What a builder may take next. -/
inductive Builder where
  | someValue (frames : List Frame)
  | firstItem (frames : List Frame)
  | firstName (frames : List Frame)
  | nextName (reversed : List (Option Text × Json)) (frames : List Frame)
  | colon (reversed : List (Option Text × Json)) (name : Option Text) (frames : List Frame)
  | afterItem (reversed : List Json) (frames : List Frame)
  | afterMember (reversed : List (Option Text × Json)) (frames : List Frame)
  | done (value : Json)

namespace Builder

/-- Puts a finished value where it belongs. -/
def put (value : Json) : List Frame → Builder
  | [] => .done value
  | .items reversed :: frames => .afterItem (value :: reversed) frames
  | .members reversed name :: frames => .afterMember ((name, value) :: reversed) frames

/-- Takes a token where a value is due. -/
def takeValue (frames : List Frame) : Token → Option Builder
  | .openArray => some (.firstItem frames)
  | .openObject => some (.firstName frames)
  | .leaf value => some (put value frames)
  | .quoted text => some (put (.string text) frames)
  | _ => none

/-- Takes the next token. -/
def step : Builder → Token → Option Builder
  | .someValue frames, token => takeValue frames token
  | .firstItem frames, .closeArray => some (put (.array []) frames)
  | .firstItem frames, token => takeValue (.items [] :: frames) token
  | .firstName frames, .closeObject => some (put (.object []) frames)
  | .firstName frames, .quoted text => some (.colon [] text frames)
  | .nextName reversed frames, .quoted text => some (.colon reversed text frames)
  | .colon reversed name frames, .colon => some (.someValue (.members reversed name :: frames))
  | .afterItem reversed frames, .comma => some (.someValue (.items reversed :: frames))
  | .afterItem reversed frames, .closeArray => some (put (.array reversed.reverse) frames)
  | .afterMember reversed frames, .comma => some (.nextName reversed frames)
  | .afterMember reversed frames, .closeObject => some (put (.object reversed.reverse) frames)
  | _, _ => none

/-- The value that has been built, once nothing is missing. -/
def finish? : Builder → Option Json
  | .done value => some value
  | _ => none

end Builder

/-- The value of a list of tokens. -/
def ofTokens? (tokens : List Token) : Option Json := do
  (← tokens.foldlM Builder.step (.someValue [])).finish?

/-- Reads a JSON text. -/
def parse? (text : Text) : Option Json := do
  ofTokens? (← Token.ofText? text)

end TidyLines.Json
