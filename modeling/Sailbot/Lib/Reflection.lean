import Mathlib.Data.List.Basic

/-!
# Protocol buffer reflection

Message types as data, and messages read through reflection. A program that walks through
a message by the names of its fields finds each field in the descriptor of the message it
has arrived at, and hands it to a method that works on one kind of field only; on another
kind the method aborts the process.

* `Schema`, `FieldDescriptor` — message types and their fields.
* `Messages`          — the messages of a schema and what the accessors read from them.
* `getMessage`, `mutableMessage`, `hasField`, `getScalar` — the accessors with their usage
  checks.
* `Schema.Leads`      — the paths that reflection can follow.

Groups and extensions are left out.
-/

namespace Sailbot.Lib

-- ---------------------------------------------------------------------------
-- Descriptors
-- ---------------------------------------------------------------------------

inductive Label
  | optional
  | required
  | repeated
  deriving DecidableEq, Repr

/-- `FieldDescriptor::Type`; `T` names the message types. -/
inductive FieldType (T : Type)
  | double
  | float
  | int64
  | uint64
  | int32
  | fixed64
  | fixed32
  | bool
  | string
  | message (type : T)
  | bytes
  | uint32
  | enum
  | sfixed32
  | sfixed64
  | sint32
  | sint64
  deriving DecidableEq, Repr

/-- `FieldDescriptor::CppType`. -/
inductive CppType (T : Type)
  | int32
  | int64
  | uint32
  | uint64
  | double
  | float
  | bool
  | enum
  | string
  | message (type : T)
  deriving DecidableEq, Repr

variable {T : Type}

def FieldType.cppType : FieldType T → CppType T
  | .double => .double
  | .float => .float
  | .int64 | .sfixed64 | .sint64 => .int64
  | .uint64 | .fixed64 => .uint64
  | .int32 | .sfixed32 | .sint32 => .int32
  | .uint32 | .fixed32 => .uint32
  | .bool => .bool
  | .enum => .enum
  | .string | .bytes => .string
  | .message type => .message type

@[simp] theorem FieldType.cppType_eq_message {type : FieldType T} {u : T} :
    type.cppType = .message u ↔ type = .message u := by
  cases type <;> simp [FieldType.cppType]

instance (type : FieldType T) : Decidable (∃ u, type = .message u) :=
  decidable_of_iff ((match type with | .message _ => true | _ => false) = true)
    (by cases type <;> simp)

structure FieldDescriptor (T : Type) where
  label : Label
  type  : FieldType T
  name  : String
  deriving DecidableEq, Repr

/-- An optional or required field. -/
def FieldDescriptor.Singular (f : FieldDescriptor T) : Prop := f.label ≠ .repeated

instance (f : FieldDescriptor T) : Decidable f.Singular := inferInstanceAs (Decidable (_ ≠ _))

/-- The fields of every message type. -/
structure Schema (T : Type) where
  fields : T → List (FieldDescriptor T)

def Schema.findFieldByName (S : Schema T) (t : T) (name : List Char) : Option (FieldDescriptor T) :=
  (S.fields t).find? fun f => f.name.toList == name

-- ---------------------------------------------------------------------------
-- Messages
-- ---------------------------------------------------------------------------

/-- The messages of each type, and what the accessors read from a field of the kind that
they are made for. `D` is the type of floating-point numbers. -/
structure Messages (T D : Type) where
  Message : T → Type
  hasField : {t : T} → Message t → FieldDescriptor T → Bool
  /-- The message in the field, or an empty one. -/
  getMessage : {t : T} → Message t → FieldDescriptor T → (u : T) → Message u
  getString : {t : T} → Message t → FieldDescriptor T → List Char
  getDouble : {t : T} → Message t → FieldDescriptor T → D
  getFloat : {t : T} → Message t → FieldDescriptor T → D
  getBool : {t : T} → Message t → FieldDescriptor T → Bool
  getEnumValue : {t : T} → Message t → FieldDescriptor T → Int
  getInt32 : {t : T} → Message t → FieldDescriptor T → Int
  getInt64 : {t : T} → Message t → FieldDescriptor T → Int
  getUInt32 : {t : T} → Message t → FieldDescriptor T → Int
  getUInt64 : {t : T} → Message t → FieldDescriptor T → Int

/-- Why a reflection method aborts the process. -/
inductive Misuse
  /-- "FieldDescriptor is repeated; the method requires a singular field." -/
  | notSingular
  /-- "FieldDescriptor is not the right type for this message". -/
  | wrongType
  deriving DecidableEq, Repr

variable {D α : Type} {R : Messages T D} {t : T}

/-- `Reflection::GetMessage`; the message comes with its type. -/
def getMessage (m : R.Message t) (f : FieldDescriptor T) : Except Misuse (Sigma R.Message) :=
  if f.Singular then
    match f.type.cppType with
    | .message u => .ok ⟨u, R.getMessage m f u⟩
    | _ => .error .wrongType
  else .error .notSingular

/-- `Reflection::MutableMessage`: the type of the message to be written. -/
def mutableMessage (f : FieldDescriptor T) : Except Misuse T :=
  if f.Singular then
    match f.type.cppType with
    | .message u => .ok u
    | _ => .error .wrongType
  else .error .notSingular

/-- `Reflection::HasField`. -/
def hasField (m : R.Message t) (f : FieldDescriptor T) : Except Misuse Bool :=
  if f.Singular then .ok (R.hasField m f) else .error .notSingular

/-- The methods for the other types: each is `get`, for fields of type `cpp`. -/
def getScalar [DecidableEq T] (cpp : CppType T) (get : R.Message t → FieldDescriptor T → α)
    (m : R.Message t) (f : FieldDescriptor T) : Except Misuse α :=
  if f.Singular then
    if f.type.cppType = cpp then .ok (get m f) else .error .wrongType
  else .error .notSingular

theorem getMessage_ok {m : R.Message t} {f : FieldDescriptor T} {u : T} (hSingular : f.Singular)
    (hType : f.type = .message u) : getMessage m f = .ok ⟨u, R.getMessage m f u⟩ := by
  rw [getMessage, if_pos hSingular, hType]
  rfl

theorem mutableMessage_ok {f : FieldDescriptor T} {u : T} (hSingular : f.Singular)
    (hType : f.type = .message u) : mutableMessage f = .ok u := by
  rw [mutableMessage, if_pos hSingular, hType]
  rfl

/-- `GetMessage` has a result on singular message fields only. -/
theorem getMessage_eq_ok {m : R.Message t} {f : FieldDescriptor T} {sub : Sigma R.Message}
    (h : getMessage m f = .ok sub) :
    f.Singular ∧ f.type = .message sub.1 := by
  unfold getMessage at h
  split at h
  case isFalse => cases h
  case isTrue hSingular =>
    split at h
    case h_2 => cases h
    case h_1 u hType =>
      obtain rfl := Except.ok.inj h
      exact ⟨hSingular, FieldType.cppType_eq_message.mp hType⟩

theorem getScalar_ok [DecidableEq T] {cpp : CppType T} {get : R.Message t → FieldDescriptor T → α}
    {m : R.Message t} {f : FieldDescriptor T} (hSingular : f.Singular)
    (hType : f.type.cppType = cpp) :
    getScalar cpp get m f = .ok (get m f) := by
  rw [getScalar, if_pos hSingular, if_pos hType]

-- ---------------------------------------------------------------------------
-- Paths
-- ---------------------------------------------------------------------------

namespace Schema

variable (S : Schema T)

/-- The names lead from messages of the first type to messages of the last, through
singular message fields. -/
inductive Leads : T → List (List Char) → T → Prop
  | nil (t : T) : Leads t [] t
  | cons {t u v : T} {name : List Char} {names : List (List Char)} {f : FieldDescriptor T}
      (hFind : S.findFieldByName t name = some f) (hSingular : f.Singular)
      (hType : f.type = .message u) (hLeads : Leads u names v) : Leads t (name :: names) v

/-- Wherever the path gets to, it goes on through fields that reflection can follow: an
inner name is of a singular message field and the last one of a singular field, unless it
is unknown. -/
def Usable (t : T) (path : List (List Char)) : Prop :=
  ∀ front name back u f, path = front ++ name :: back → S.Leads t front u →
    S.findFieldByName u name = some f →
      f.Singular ∧ (back ≠ [] → ∃ v, f.type = .message v)

/-- The path ends at a singular field. -/
def Resolves (t : T) (path : List (List Char)) : Prop :=
  ∃ front name u f, path = front ++ [name] ∧ S.Leads t front u ∧
    S.findFieldByName u name = some f ∧ f.Singular

variable {S} {t u : T} {name : List Char} {names : List (List Char)} {f : FieldDescriptor T}

theorem usable_of_not_found (hFind : S.findFieldByName t name = none) :
    S.Usable t (name :: names) := by
  intro front _ back v g hPath hLeads hField
  induction hLeads with
  | nil => simp_all
  | cons hFirst => simp_all

/-- A path with one name. -/
theorem usable_singleton (hFind : S.findFieldByName t name = some f) :
    S.Usable t [name] ↔ f.Singular := by
  constructor
  · intro h
    exact (h [] name [] t f rfl (.nil t) hFind).1
  · intro hSingular front other back v g hPath hLeads hField
    cases hLeads with
    | nil =>
      obtain ⟨rfl, rfl⟩ := List.cons.inj hPath
      obtain rfl : f = g := Option.some.inj (hFind.symm.trans hField)
      exact ⟨hSingular, fun hBack => absurd rfl hBack⟩
    | cons => simp at hPath

/-- A path with more names. -/
theorem usable_cons (hFind : S.findFieldByName t name = some f) (hNames : names ≠ []) :
    S.Usable t (name :: names) ↔
      f.Singular ∧ ∃ u, f.type = .message u ∧ S.Usable u names := by
  constructor
  · intro h
    obtain ⟨hSingular, hMessage⟩ := h [] name names t f rfl (.nil t) hFind
    obtain ⟨u, hType⟩ := hMessage hNames
    refine ⟨hSingular, u, hType, ?_⟩
    intro front other back v g hPath hLeads hField
    exact h (name :: front) other back v g (by rw [hPath, List.cons_append])
      (.cons hFind hSingular hType hLeads) hField
  · rintro ⟨hSingular, u, hType, h⟩ front other back v g hPath hLeads hField
    cases hLeads with
    | nil =>
      obtain ⟨rfl, rfl⟩ := List.cons.inj hPath
      obtain rfl : f = g := Option.some.inj (hFind.symm.trans hField)
      exact ⟨hSingular, fun _ => ⟨u, hType⟩⟩
    | cons hFirst _ hFirstType hRest =>
      rw [List.cons_append] at hPath
      obtain ⟨rfl, hNames⟩ := List.cons.inj hPath
      obtain rfl := Option.some.inj (hFind.symm.trans hFirst)
      obtain rfl := FieldType.message.inj (hType.symm.trans hFirstType)
      exact h _ other back v g hNames hRest hField

theorem resolves_singleton (hFind : S.findFieldByName t name = some f) (hSingular : f.Singular) :
    S.Resolves t [name] :=
  ⟨[], name, t, f, rfl, .nil t, hFind, hSingular⟩

theorem Resolves.cons (hFind : S.findFieldByName t name = some f) (hSingular : f.Singular)
    (hType : f.type = .message u) (h : S.Resolves u names) : S.Resolves t (name :: names) := by
  obtain ⟨front, last, v, g, rfl, hLeads, hField⟩ := h
  exact ⟨name :: front, last, v, g, rfl, .cons hFind hSingular hType hLeads, hField⟩

end Schema

end Sailbot.Lib
