import Mathlib.Algebra.Group.Nat.Defs
import Mathlib.Data.List.Nodup
import Mathlib.Data.Nat.Notation

/-!
# Types that are written as JSON

A shape writes the values of a type and reads them back. The shape of a record is built from its
fields, each with its own rule for a value that is absent.
-/

namespace Foundation

/-- A value of JSON. Of the numbers, those without a sign or a fraction. -/
inductive Json where
  | null
  | bool (value : Bool)
  | number (value : ℕ)
  | string (value : String)
  | array (items : List Json)
  | object (entries : List (String × Json))

namespace Json

def field (name : String) : Json → Option Json
  | .object entries => entries.lookup name
  | _ => none

/-- The text of an entry that says which variant a value is. -/
def tag (key : String) (json : Json) : Option String :=
  match json.field key with
  | some (.string value) => some value
  | _ => none

/-- The entries of a variant, behind its tag. -/
def tagged (key value : String) (entries : List (String × Json)) : Json :=
  .object ((key, .string value) :: entries)

/-- Only these names occur. -/
def closedTo (names : List String) : Json → Bool
  | .object entries => entries.all fun entry => names.contains entry.1
  | _ => false

theorem tag_tagged (key value : String) (entries : List (String × Json)) :
    (tagged key value entries).tag key = some value := by
  simp [tag, tagged, field]

theorem sizeOf_lookup {name : String} {inner : Json} :
    ∀ {entries : List (String × Json)}, entries.lookup name = some inner →
      sizeOf inner < sizeOf entries := by
  intro entries
  induction entries with
  | nil => exact nofun
  | cons entry entries ih =>
      intro h
      rw [List.lookup_cons] at h
      split at h
      · cases h
        rw [List.cons.sizeOf_spec, Prod.mk.sizeOf_spec]
        omega
      · have hlt := ih h
        rw [List.cons.sizeOf_spec]
        omega

theorem sizeOf_field {name : String} {json inner : Json} (h : json.field name = some inner) :
    sizeOf inner < sizeOf json := by
  cases json with
  | object entries =>
      have hlt := sizeOf_lookup h
      rw [Json.object.sizeOf_spec]
      omega
  | _ => cases h

end Json

/-! ### Shapes -/

/-- How the values of a type are written and read. None of them is written as null. -/
structure Shape (α : Type) where
  encode : α → Json
  decode : Json → Option α
  decode_encode : ∀ a, decode (encode a) = some a
  encode_ne_null : ∀ a, encode a ≠ .null

namespace Shape

def text : Shape String where
  encode := .string
  decode
    | .string value => some value
    | _ => none
  decode_encode _ := rfl
  encode_ne_null _ := nofun

def bool : Shape Bool where
  encode := .bool
  decode
    | .bool value => some value
    | _ => none
  decode_encode _ := rfl
  encode_ne_null _ := nofun

/-- A number of a fixed width. -/
def count {α : Type} (toNat : α → ℕ) (ofNat : ℕ → Option α) (h : ∀ a, ofNat (toNat a) = some a) :
    Shape α where
  encode a := .number (toNat a)
  decode
    | .number value => ofNat value
    | _ => none
  decode_encode := h
  encode_ne_null _ := nofun

def u16 : Shape UInt16 :=
  count UInt16.toNat (fun n => if n < 2 ^ 16 then some (UInt16.ofNat n) else none) fun n => by
    rw [if_pos n.toNat_lt, UInt16.ofNat_toNat]

def u32 : Shape UInt32 :=
  count UInt32.toNat (fun n => if n < 2 ^ 32 then some (UInt32.ofNat n) else none) fun n => by
    rw [if_pos n.toNat_lt, UInt32.ofNat_toNat]

def u64 : Shape UInt64 :=
  count UInt64.toNat (fun n => if n < 2 ^ 64 then some (UInt64.ofNat n) else none) fun n => by
    rw [if_pos n.toNat_lt, UInt64.ofNat_toNat]

/-- A variant without fields is written as its name. -/
def named {α : Type} (all : List α) (name : α → String)
    (h : ∀ a, all.find? (fun other => name other == name a) = some a) : Shape α where
  encode a := .string (name a)
  decode
    | .string value => all.find? fun other => name other == value
    | _ => none
  decode_encode := h
  encode_ne_null _ := nofun

section

variable {α : Type} (shape : Shape α)

theorem mapM_decode (items : List α) :
    (items.map shape.encode).mapM shape.decode = some items := by
  induction items with
  | nil => rfl
  | cons item items ih =>
      rw [List.map_cons, List.mapM_cons, shape.decode_encode, ih]
      rfl

def list : Shape (List α) where
  encode items := .array (items.map shape.encode)
  decode
    | .array items => items.mapM shape.decode
    | _ => none
  decode_encode := shape.mapM_decode
  encode_ne_null _ := nofun

end

end Shape

/-! ### Fields -/

/-- A part of a record: the entries it is written as, and how it is read where the entries are
looked up by name. -/
structure Fields (α : Type) where
  names : List String
  write : α → List (String × Json)
  read : (String → Option Json) → Option α
  names_write : ∀ a, ∀ entry ∈ write a, entry.1 ∈ names
  read_write : names.Nodup → ∀ a look, (∀ name ∈ names, look name = (write a).lookup name) →
    read look = some a

namespace Fields

variable {α β : Type}

theorem lookup_single (name : String) (json : Json) : [(name, json)].lookup name = some json := by
  simp

/-- A field that is always there. -/
def required (name : String) (shape : Shape α) : Fields α where
  names := [name]
  write a := [(name, shape.encode a)]
  read look := (look name).bind shape.decode
  names_write a entry hentry := by
    rw [List.mem_singleton] at hentry ⊢
    rw [hentry]
  read_write _ a look hlook := by
    rw [hlook name (List.mem_singleton_self name), lookup_single, Option.bind_some,
      shape.decode_encode]

/-- A field whose absence is read as `missing`. -/
def defaulted (name : String) (missing : α) (shape : Shape α) : Fields α where
  names := [name]
  write a := [(name, shape.encode a)]
  read look :=
    match look name with
    | some json => shape.decode json
    | none => some missing
  names_write a entry hentry := by
    rw [List.mem_singleton] at hentry ⊢
    rw [hentry]
  read_write _ a look hlook := by
    rw [hlook name (List.mem_singleton_self name), lookup_single]
    exact shape.decode_encode a

/-- An absent value is read from null, or where the field is missing. -/
def readOption (shape : Shape α) : Option Json → Option (Option α)
  | none => some none
  | some .null => some none
  | some json => (shape.decode json).map some

theorem readOption_encode (shape : Shape α) (a : α) :
    readOption shape (some (shape.encode a)) = some (some a) := by
  have hsolid := shape.encode_ne_null a
  have hread := shape.decode_encode a
  unfold readOption
  cases hencode : shape.encode a with
  | null => exact absurd hencode hsolid
  | _ => rw [hencode] at hread; simp only [hread, Option.map_some]

/-- A field of which an absent value is written as null. -/
def optional (name : String) (shape : Shape α) : Fields (Option α) where
  names := [name]
  write a := [(name, (a.map shape.encode).getD .null)]
  read look := readOption shape (look name)
  names_write a entry hentry := by
    rw [List.mem_singleton] at hentry ⊢
    rw [hentry]
  read_write _ a look hlook := by
    rw [hlook name (List.mem_singleton_self name), lookup_single]
    cases a with
    | none => rfl
    | some a => exact readOption_encode shape a

/-- A field of which an absent value is left out. -/
def omitted (name : String) (shape : Shape α) : Fields (Option α) where
  names := [name]
  write
    | some a => [(name, shape.encode a)]
    | none => []
  read look := readOption shape (look name)
  names_write a entry hentry := by
    cases a with
    | none => cases hentry
    | some a =>
        rw [List.mem_singleton] at hentry ⊢
        rw [hentry]
  read_write _ a look hlook := by
    rw [hlook name (List.mem_singleton_self name)]
    cases a with
    | none => rfl
    | some a =>
        rw [lookup_single]
        exact readOption_encode shape a

theorem lookup_eq_none {name : String} {entries : List (String × Json)}
    (h : ∀ entry ∈ entries, entry.1 ≠ name) : entries.lookup name = none := by
  rw [List.lookup_eq_none_iff]
  intro entry hentry
  exact bne_iff_ne.mpr (h entry hentry).symm

/-- The fields of two parts, one behind the other. -/
def pair (first : Fields α) (second : Fields β) : Fields (α × β) where
  names := first.names ++ second.names
  write a := first.write a.1 ++ second.write a.2
  read look := do
    let a ← first.read look
    let b ← second.read look
    some (a, b)
  names_write a entry hentry := by
    rw [List.mem_append] at hentry ⊢
    exact hentry.imp (first.names_write a.1 entry) (second.names_write a.2 entry)
  read_write hnodup a look hlook := by
    obtain ⟨hfirst, hsecond, hdisjoint⟩ := List.nodup_append.mp hnodup
    have hleft : first.read look = some a.1 := by
      refine first.read_write hfirst a.1 look fun name hname => ?_
      rw [hlook name (List.mem_append_left _ hname), List.lookup_append,
        lookup_eq_none fun entry hentry heq =>
          hdisjoint name hname entry.1 (second.names_write a.2 entry hentry) heq.symm,
        Option.or_none]
    have hright : second.read look = some a.2 := by
      refine second.read_write hsecond a.2 look fun name hname => ?_
      rw [hlook name (List.mem_append_right _ hname), List.lookup_append,
        lookup_eq_none fun entry hentry heq =>
          hdisjoint entry.1 (first.names_write a.1 entry hentry) name hname heq,
        Option.none_or]
    rw [hleft, hright]
    rfl

/-- The record that the fields make up. -/
def map (fields : Fields α) (make : α → β) (parts : β → α) (h : ∀ b, make (parts b) = b) :
    Fields β where
  names := fields.names
  write b := fields.write (parts b)
  read look := (fields.read look).map make
  names_write b := fields.names_write (parts b)
  read_write hnodup b look hlook := by
    rw [fields.read_write hnodup (parts b) look hlook, Option.map_some, h b]

variable (fields : Fields α)

/-- Fields that are not known are passed over. -/
def readOpen (json : Json) : Option α := fields.read (json.field ·)

/-- Fields that are not known are refused. -/
def readClosed (key : Option String) (json : Json) : Option α :=
  if json.closedTo (key.toList ++ fields.names) then fields.read (json.field ·) else none

variable {fields}

theorem readOpen_write (hnodup : fields.names.Nodup) (a : α) :
    fields.readOpen (.object (fields.write a)) = some a :=
  fields.read_write hnodup a _ fun _ _ => rfl

theorem readClosed_write (hnodup : fields.names.Nodup) (a : α) :
    fields.readClosed none (.object (fields.write a)) = some a := by
  have hclosed : (Json.object (fields.write a)).closedTo fields.names = true := by
    rw [Json.closedTo, List.all_eq_true]
    exact fun entry hentry => List.contains_iff_mem.mpr (fields.names_write a entry hentry)
  unfold readClosed
  rw [Option.toList_none, List.nil_append, if_pos hclosed]
  exact readOpen_write hnodup a

theorem readOpen_tagged {key : String} (hnodup : (key :: fields.names).Nodup) (value : String)
    (a : α) : fields.readOpen (Json.tagged key value (fields.write a)) = some a := by
  obtain ⟨hkey, hnodup⟩ := List.nodup_cons.mp hnodup
  refine fields.read_write hnodup a _ fun name hname => ?_
  have hother : (name == key) = false := by
    rw [beq_eq_false_iff_ne]
    rintro rfl
    exact hkey hname
  rw [Json.tagged, Json.field, List.lookup_cons, hother]

theorem readClosed_tagged {key : String} (hnodup : (key :: fields.names).Nodup) (value : String)
    (a : α) : fields.readClosed (some key) (Json.tagged key value (fields.write a)) = some a := by
  have hclosed : (Json.tagged key value (fields.write a)).closedTo (key :: fields.names) =
      true := by
    rw [Json.tagged, Json.closedTo, List.all_eq_true]
    intro entry hentry
    rw [List.contains_iff_mem]
    rcases List.mem_cons.mp hentry with rfl | hentry
    · exact List.mem_cons_self
    · exact List.mem_cons_of_mem _ (fields.names_write a entry hentry)
  unfold readClosed
  rw [Option.toList_some, List.singleton_append, if_pos hclosed]
  exact readOpen_tagged hnodup value a

end Fields

/-! ### Records -/

namespace Shape

variable {α : Type} (fields : Fields α)

def record (h : fields.names.Nodup) : Shape α where
  encode a := .object (fields.write a)
  decode := fields.readOpen
  decode_encode := Fields.readOpen_write h
  encode_ne_null _ := nofun

/-- A record that refuses unknown fields. -/
def closedRecord (h : fields.names.Nodup) : Shape α where
  encode a := .object (fields.write a)
  decode := fields.readClosed none
  decode_encode := Fields.readClosed_write h
  encode_ne_null _ := nofun

end Shape

end Foundation
