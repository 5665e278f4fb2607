import ProgramGraphs.Json.Record

/-!
# Decoding alternatives

One of several variants is written in one of two ways.  A *plain* alternative is the name
of a variant, or an object with the name as its only key and the content as the value.
A *tagged* one is an object in which one member, the tag, names the variant, or a list
that starts with the name; the fields of the variant stand beside the tag.
-/

namespace ProgramGraphs.Json.Variant

open Reading (Found Mismatch)

/-! ## Plain alternatives -/

/-- A variant of a plain alternative: its name, and how its content is decoded. -/
structure Plain (α : Type) where
  name : String
  /-- The value of the variant when it stands for itself. -/
  alone : Option α
  content : Decoder α

/-- A variant without content, which `null` may stand for. -/
def Plain.unit {α : Type} (name : String) (value : α) : Plain α where
  name := name
  alone := some value
  content
    | .null => .ok value
    | node => Decode.wrongType "unit" node

/-- A variant with content. -/
def Plain.withContent {α β : Type} (name : String) (build : β → α) (decode : Decoder β) :
    Plain α where
  name := name
  alone := none
  content node := build <$> decode node

/-- The variant of a given name. -/
def lookup {α : Type} (variants : List (Plain α)) (name : String) : Except ReadError (Plain α) :=
  match variants.find? (·.name == name) with
  | some variant => .ok variant
  | none => .error (.mismatch (.unknownVariant name (variants.map (·.name))))

/-- The end of an object that holds one variant. -/
def closed : Members → Except ReadError Unit
  | .close => .ok ()
  | .stopped stop => .error (.defect stop.read)
  | .keyless _ => .error (.defect .malformed)
  | .member _ _ _ => .error (.defect .malformed)

/-- A plain alternative. -/
def plain {α : Type} (variants : List (Plain α)) : Decoder α
  | .string name => do
    let variant ← lookup variants name
    match variant.alone with
    | some value => return value
    | none => .error (.mismatch (.wrongType .unitVariant "newtype variant"))
  | .object (.member (some name) node rest) => do
    let variant ← lookup variants name
    let value ← variant.content node
    closed rest
    return value
  | .object (.keyless found) => Decode.wrongType "variant identifier" found
  | .stopped .nothing stop => .error (.defect stop.read)
  | .stopped .quote stop => .error (.defect stop.read)
  | _ => .error (.defect .malformed)

/-! ## Tagged alternatives -/

/-- A variant of a tagged alternative. -/
structure Tagged (α : Type) where
  name : String
  /-- Decodes the variant from the members beside the tag. -/
  ofMembers : Members → Except ReadError α
  /-- Decodes the variant from the items after the tag. -/
  ofItems : Items → Except ReadError α

/-- The number of items of a list. -/
def count : Items → Nat
  | .item _ rest => count rest + 1
  | _ => 0

/-- The report of items that no field takes. -/
def itemsLeft (taken : Nat) (rest : Items) : Except ReadError Unit :=
  match count rest with
  | 0 => .ok ()
  | left =>
    .error (.mismatch (.wrongLength (taken + left) (Record.elements taken ++ " in sequence")))

/-- A variant without fields. -/
def Tagged.unit {α : Type} (name : String) (value : α) : Tagged α where
  name := name
  ofMembers _ := .ok value
  ofItems nodes := do
    itemsLeft 0 nodes
    return value

/-- A variant with one field. -/
def Tagged.withField {α β : Type} (name description field : String) (decode : Decoder β)
    (build : β → α) : Tagged α :=
  let fields : Record.Fields [β] := .cons (.required field decode) .nil
  { name
    ofMembers := fun members => (fun values => build values.1) <$> Record.ofMembers fields members
    ofItems := fun nodes => do
      let (values, rest) ← fields.ofItems (description ++ " with 1 element") 0 nodes
      itemsLeft 1 rest
      return build values.1 }

/-- Whether the tag may also be given as the place of the variant. -/
inductive TagForm where
  /-- The tag is a name. -/
  | name
  /-- The tag is a name or a place. -/
  | nameOrPlace
  deriving DecidableEq, Repr

/-- A tagged alternative: its name, the key of the tag, and the variants. -/
structure Alternative (α : Type) where
  name : String
  tag : String
  variants : List (Tagged α)

namespace Alternative

variable {α : Type}

/-- The variant that a tag stands for. -/
def variant (alternative : Alternative α) (form : TagForm) (node : Node) :
    Except ReadError (Tagged α) :=
  match node, form with
  | .string name, _ =>
    match alternative.variants.find? (·.name == name) with
    | some variant => .ok variant
    | none => .error (.mismatch (.unknownVariant name (alternative.variants.map (·.name))))
  | .integer place, .nameOrPlace =>
    if place < 0 then Decode.wrongType "variant identifier" node
    else match alternative.variants[place.toNat]? with
      | some variant => .ok variant
      | none => Decode.wrongInteger
          ("variant index 0 <= i < " ++ toString alternative.variants.length) place
  | _, _ => Decode.wrongType "variant identifier" node

/-- The members of an object with the tag taken out, as they are met.  Values beside the tag
are read as a whole, with the given number of lists and objects open around them. -/
def separate (alternative : Alternative α) (form : TagForm) (opened : Nat)
    (tag : Option (Tagged α)) (others : List (Option String × Node)) :
    Members → Except ReadError (Tagged α × Members)
  | .close =>
    match tag with
    | some variant => .ok (variant, Members.close.prepend others)
    | none => .error (.mismatch (.missingField alternative.tag))
  | .stopped stop => .error (.defect stop.read)
  | .keyless found => .error (.defect found.keyDefect)
  | .member none _ _ => .error (.defect .malformed)
  | .member (some key) node rest =>
    if key = alternative.tag then
      match tag with
      | some _ => .error (.mismatch (.duplicateField alternative.tag))
      | none => do
        let variant ← alternative.variant form node
        alternative.separate form opened (some variant) others rest
    else
      match node.check opened with
      | .ok () => alternative.separate form opened tag ((some key, node) :: others) rest
      | .error defect => .error (.defect defect)

/-- Decodes the alternative from an object's members. -/
def ofMembers (alternative : Alternative α) (form : TagForm) (opened : Nat)
    (members : Members) : Except ReadError α := do
  let (variant, others) ← alternative.separate form opened none [] members
  variant.ofMembers others

/-- Decodes the alternative from a list's items. -/
def ofItems (alternative : Alternative α) (form : TagForm) (opened : Nat) :
    Items → Except ReadError α
  | .close => .error (.mismatch (.missingField alternative.tag))
  | .stopped stop => .error (.defect stop.read)
  | .item node rest => do
    let variant ← alternative.variant form node
    match Node.check.checkItems opened rest with
    | .ok () => variant.ofItems rest
    | .error defect => .error (.defect defect)

/-- A tagged alternative, with the given number of lists and objects open around it. -/
def decode (alternative : Alternative α) (form : TagForm) (opened : Nat) : Decoder α
  | .object members => alternative.ofMembers form (opened + 1) members
  | .list nodes => alternative.ofItems form (opened + 1) nodes
  | node => Decode.wrongType ("internally tagged enum " ++ alternative.name) node

end Alternative

end ProgramGraphs.Json.Variant
