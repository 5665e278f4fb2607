/-!
# JSON documents as they are read

A document is read from its start, and reading may stop before its end.  A `Document`
keeps everything that stands before the place where reading stops, and what is wrong
there, so that a consumer meets the problems of a document in the order in which they
stand in it.

A consumer may *read* a value or *pass over* it.  Passing over checks grammar alone, so
the two can differ: half of a surrogate pair spoils a text that is read, and a number
too large spoils a number that is read.  A `Stop` therefore says what each of the two
finds.
-/

namespace ProgramGraphs.Json

/-- What is wrong with a text that is no JSON document. -/
inductive Defect where
  /-- The text ends inside a value. -/
  | truncated
  /-- The text breaks the grammar, or a number or text in it has no value. -/
  | malformed
  deriving DecidableEq, Repr, Inhabited

/-- A place where reading stops. -/
structure Stop where
  /-- What a consumer that reads the value finds. -/
  read : Defect
  /-- What a consumer that passes over the value finds. -/
  pass : Defect
  deriving DecidableEq, Repr, Inhabited

/-- A stop that is the same for every consumer. -/
def Stop.both (defect : Defect) : Stop := ⟨defect, defect⟩

/-- What stands at the place where reading stops. -/
inductive Beginning where
  /-- Nothing: the text ends here. -/
  | nothing
  /-- The opening quote of a text. -/
  | quote
  /-- Any other character. -/
  | other
  deriving DecidableEq, Repr, Inhabited

mutual

/-- A value in a document, as far as it can be read. -/
inductive Node where
  | null
  | bool (value : Bool)
  | integer (value : Int)
  | float (value : Float)
  | string (text : String)
  /-- A number or text that keeps to the grammar and has no value. -/
  | valueless
  | list (items : Items)
  | object (members : Members)
  /-- Reading stops here. -/
  | stopped (beginning : Beginning) (stop : Stop)

/-- The items of a list after its opening bracket or after an item. -/
inductive Items where
  /-- The list is closed. -/
  | close
  /-- Neither an item nor the end of the list follows. -/
  | stopped (stop : Stop)
  /-- One more item, which a comma separates from the item before it. -/
  | item (value : Node) (rest : Items)

/-- The members of an object after its opening brace or after a member. -/
inductive Members where
  /-- The object is closed. -/
  | close
  /-- Neither a member nor the end of the object follows. -/
  | stopped (stop : Stop)
  /-- A member was to start here, and no key stands here. -/
  | keyless (found : Node)
  /-- One more member.  The key is missing when it keeps to the grammar and has no value. -/
  | member (key : Option String) (value : Node) (rest : Members)

end

/-- What a text holds: its value, and whether more than blanks follows it. -/
structure Document where
  root : Node
  trailing : Bool

instance : Inhabited Node := ⟨.null⟩

instance : Inhabited Document := ⟨⟨.null, false⟩⟩

namespace Items

/-- What follows the last item that can be read. -/
def pass : Items → Except Defect Unit
  | .close => .ok ()
  | .stopped stop => .error stop.pass
  | .item _ rest => rest.pass

/-- The list of items in front of a tail, the last of them given first. -/
def prepend (tail : Items) : List Node → Items
  | [] => tail
  | value :: earlier => prepend (.item value tail) earlier

end Items

namespace Node

/-- What a consumer finds that wants a key where this value stands. -/
def keyDefect : Node → Defect
  | .stopped .nothing stop => stop.read
  | .stopped .quote stop => stop.read
  | _ => .malformed

end Node

namespace Members

/-- What follows the last member that can be read. -/
def pass : Members → Except Defect Unit
  | .close => .ok ()
  | .stopped stop => .error stop.pass
  | .keyless (.stopped .quote stop) => .error stop.pass
  | .keyless found => .error found.keyDefect
  | .member _ _ rest => rest.pass

/-- The members in front of a tail, the last of them given first. -/
def prepend (tail : Members) : List (Option String × Node) → Members
  | [] => tail
  | (key, value) :: earlier => prepend (.member key value tail) earlier

end Members

namespace Node

/-- Passes over a value. -/
def pass : Node → Except Defect Unit
  | .stopped _ stop => .error stop.pass
  | .list items => items.pass
  | .object members => members.pass
  | _ => .ok ()

/-- Finds the first problem of a value that is read as a whole while `opened` lists and
objects are open around it.  At most 127 may be open at once. -/
def check (opened : Nat) : Node → Except Defect Unit
  | .stopped _ stop => .error stop.read
  | .valueless => .error .malformed
  | .list items => if opened < 127 then checkItems (opened + 1) items else .error .malformed
  | .object members => if opened < 127 then checkMembers (opened + 1) members else .error .malformed
  | _ => .ok ()
where
  /-- The first problem among items. -/
  checkItems (opened : Nat) : Items → Except Defect Unit
    | .close => .ok ()
    | .stopped stop => .error stop.read
    | .item value rest =>
      match value.check opened with
      | .ok () => checkItems opened rest
      | .error defect => .error defect
  /-- The first problem among members. -/
  checkMembers (opened : Nat) : Members → Except Defect Unit
    | .close => .ok ()
    | .stopped stop => .error stop.read
    | .keyless found => .error found.keyDefect
    | .member none _ _ => .error .malformed
    | .member (some _) value rest =>
      match value.check opened with
      | .ok () => checkMembers opened rest
      | .error defect => .error defect

end Node

end ProgramGraphs.Json
