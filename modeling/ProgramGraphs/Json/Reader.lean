import ProgramGraphs.Json.Token

/-!
# Reading JSON documents

Tokens become a document one at a time.  The lists and objects that are still open are
kept as frames, so depth costs no more than length.  Where reading stops, every open
list and object ends with what a consumer finds that passes over it, and the document up
to there is kept.
-/

namespace ProgramGraphs.Json

/-- A list or object that is still open. -/
inductive Frame where
  /-- The items so far, the last one first. -/
  | list (items : List Node)
  /-- The members so far, the last one first. -/
  | object (members : List (Option String × Node))
  /-- The members so far, and the key of a further member whose value is not yet known. -/
  | member (members : List (Option String × Node)) (key : Option String)
  deriving Inhabited

/-- What may stand next in a document. -/
inductive Expectation where
  /-- A value. -/
  | value
  /-- A first item, or the end of the list. -/
  | itemOrEnd
  /-- A key, after a comma. -/
  | key
  /-- A first key, or the end of the object. -/
  | keyOrEnd
  /-- The colon after a key. -/
  | colon
  /-- A comma, or the end of the innermost list or object. -/
  | commaOrEnd
  deriving DecidableEq, Repr, Inhabited

namespace Frame

/-- The frames after a value is complete; none are left when it is the whole document. -/
def place (value : Node) : List Frame → Option (List Frame)
  | [] => none
  | .list items :: outer => some (.list (value :: items) :: outer)
  | .member members key :: outer => some (.object ((key, value) :: members) :: outer)
  | .object members :: outer => some (.object members :: outer)

/-- Closes all frames around the place where reading stops, given what stands there. -/
def unwind (stop : Stop) (value : Node) : List Frame → Node
  | [] => value
  | .list items :: outer =>
    unwind stop (.list ((Items.item value (.stopped stop)).prepend items)) outer
  | .member members key :: outer =>
    unwind stop (.object ((Members.member key value (.stopped stop)).prepend members)) outer
  | .object members :: outer =>
    unwind stop (.object ((Members.keyless value).prepend members)) outer

/-- Closes all frames where neither a comma nor the end of the innermost one stands. -/
def unwindTail (stop : Stop) : List Frame → Node
  | .list items :: outer => unwind stop (.list ((Items.stopped stop).prepend items)) outer
  | .object members :: outer =>
    unwind stop (.object ((Members.stopped stop).prepend members)) outer
  | frames => unwind stop .null frames

end Frame

namespace Token

/-- The value of a token that is a value on its own. -/
def leaf? : Token → Option Node
  | .text (some content) => some (.string content)
  | .text none => some .valueless
  | .scalar value => some value
  | .number numeral => some numeral.toNode
  | _ => none

/-- What stands where a token stands that is out of place. -/
def found : Token → Node
  | .openList => .list .close
  | .openObject => .object .close
  | .brokenText stop => .stopped .quote stop
  | .brokenScalar stop => .stopped .other stop
  | token => token.leaf?.getD (.stopped .other (.both .malformed))

/-- What a consumer finds at a token that is no value. -/
def stopAsValue : Token → Stop
  | .brokenText stop => stop
  | .brokenScalar stop => stop
  | _ => .both .malformed

/-- What a consumer finds at a token that is no key. -/
def stopAsKey : Token → Stop
  | .brokenText stop => stop
  | _ => .both .malformed

end Token

namespace Document

/-- What one token does to a document. -/
inductive Step where
  /-- More is expected. -/
  | goOn (expected : Expectation) (frames : List Frame)
  /-- A value is complete. -/
  | complete (value : Node) (outer : List Frame)
  /-- Reading stops. -/
  | halt (root : Node)

/-- A token where a value must stand. -/
def stepValue (frames : List Frame) (token : Token) : Step :=
  match token with
  | .openList => .goOn .itemOrEnd (.list [] :: frames)
  | .openObject => .goOn .keyOrEnd (.object [] :: frames)
  | _ =>
    match token.leaf? with
    | some value => .complete value frames
    | none => .halt (Frame.unwind token.stopAsValue token.found frames)

/-- A token where a key must stand. -/
def stepKey (frames : List Frame) (token : Token) : Step :=
  match token, frames with
  | .text key, .object members :: outer => .goOn .colon (.member members key :: outer)
  | _, _ => .halt (Frame.unwind token.stopAsKey token.found frames)

/-- A token where a comma or the end of the innermost frame must stand. -/
def stepTail (frames : List Frame) (token : Token) : Step :=
  match token, frames with
  | .closeList, .list items :: outer => .complete (.list (Items.close.prepend items)) outer
  | .closeObject, .object members :: outer =>
    .complete (.object (Members.close.prepend members)) outer
  | .comma, .list _ :: _ => .goOn .value frames
  | .comma, .object _ :: _ => .goOn .key frames
  | _, _ => .halt (Frame.unwindTail (.both .malformed) frames)

/-- What a token does where something is expected. -/
def step (expected : Expectation) (frames : List Frame) (token : Token) : Step :=
  match expected, token with
  | .itemOrEnd, .closeList => stepTail frames token
  | .value, _ => stepValue frames token
  | .itemOrEnd, _ => stepValue frames token
  | .keyOrEnd, .closeObject => stepTail frames token
  | .key, _ => stepKey frames token
  | .keyOrEnd, _ => stepKey frames token
  | .colon, .colon => .goOn .value frames
  | .colon, _ =>
    .halt (Frame.unwind (.both .malformed) (.stopped .other (.both .malformed)) frames)
  | .commaOrEnd, _ => stepTail frames token

/-- The document that ends where more must stand. -/
def ended (expected : Expectation) (frames : List Frame) : Document :=
  let stop := Stop.both .truncated
  match expected with
  | .commaOrEnd => ⟨Frame.unwindTail stop frames, false⟩
  | _ => ⟨Frame.unwind stop (.stopped .nothing stop) frames, false⟩

/-- Reads on from the open frames. -/
def read (expected : Expectation) (frames : List Frame) : List Token → Document
  | [] => ended expected frames
  | token :: rest =>
    match step expected frames token with
    | .goOn expected frames => read expected frames rest
    | .complete value outer =>
      match Frame.place value outer with
      | some frames => read .commaOrEnd frames rest
      | none => ⟨value, !rest.isEmpty⟩
    | .halt root => ⟨root, false⟩

/-- The document that a row of symbols holds. -/
def ofSymbols (symbols : List Symbol) : Document := read .value [] (Token.ofSymbols symbols)

/-- The document that a text holds. -/
def ofText (text : String) : Document := ofSymbols (text.toList.map .char)

end Document

end ProgramGraphs.Json
