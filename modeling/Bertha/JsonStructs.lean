import Mathlib.Data.List.Basic

/-!
# Structs in JSON

JSON values and the deserializer that `serde` derives for a struct. The entries of an
object are visited in order: an unknown name is skipped, a known one is decoded, and a
second entry of a known name is an error. Afterwards each field takes its decoded value,
its default if it has one, and is otherwise reported missing.
-/

namespace Bertha.JsonStructs

set_option autoImplicit false

inductive Json where
  | null
  | bool (value : Bool)
  | number (value : Int)
  | string (text : String)
  | array (items : List Json)
  | object (entries : List (String × Json))

inductive JsonError where
  | invalidType (expected : String)
  | missingField (name : String)
  | duplicateField (name : String)
  | custom (message : String)
deriving DecidableEq, Repr

section Decoding

variable {Value : Type}

def decodeString : Json → Except JsonError String
  | .string text => .ok text
  | _ => .error (.invalidType "a string")

def decodeVec (decodeItem : Json → Except JsonError Value) : Json → Except JsonError (List Value)
  | .array items => items.mapM decodeItem
  | _ => .error (.invalidType "a sequence")

def decodeOption (decode : Json → Except JsonError Value) :
    Json → Except JsonError (Option Value)
  | .null => .ok none
  | json => some <$> decode json

/-- A field of a struct; `fallback` is the value of `#[serde(default)]`. -/
structure StructField (Value : Type) where
  name : String
  decode : Json → Except JsonError Value
  fallback : Option Value := none

abbrev FieldCheck := String × (Json → Except JsonError Unit)

def StructField.check (field : StructField Value) : FieldCheck :=
  (field.name, fun json => (fun _ => ()) <$> field.decode json)

def StructField.read (field : StructField Value) (entries : List (String × Json)) :
    Except JsonError Value :=
  match entries.lookup field.name with
  | some json => field.decode json
  | none =>
    match field.fallback with
    | some value => .ok value
    | none => .error (.missingField field.name)

/-- The loop of a derived `visit_map`. -/
def visitEntries (fields : List FieldCheck) (seen : List String) :
    List (String × Json) → Except JsonError Unit
  | [] => .ok ()
  | (name, json) :: rest =>
    match fields.lookup name with
    | none => visitEntries fields seen rest
    | some check =>
      if name ∈ seen then .error (.duplicateField name)
      else do
        check json
        visitEntries fields (name :: seen) rest

/-- A derived deserializer: all entries are visited, then the fields are put together. -/
def decodeStruct (expected : String) (fields : List FieldCheck)
    (build : List (String × Json) → Except JsonError Value) : Json → Except JsonError Value
  | .object entries => do
    visitEntries fields [] entries
    build entries
  | _ => .error (.invalidType expected)

theorem decode_vec_round_trip {decodeItem : Json → Except JsonError Value}
    {encode : Value → Json} (items : List Value)
    (each : ∀ item ∈ items, decodeItem (encode item) = .ok item) :
    decodeVec decodeItem (.array (items.map encode)) = .ok items := by
  change (items.map encode).mapM decodeItem = .ok items
  induction items with
  | nil => rfl
  | cons item items ih =>
      rw [List.map_cons, List.mapM_cons, each item (by simp)]
      have rest := ih fun other member => each other (by simp [member])
      change (List.mapM decodeItem (items.map encode) >>= fun later =>
        pure (item :: later)) = _
      rw [rest]
      rfl

theorem visit_field {fields : List FieldCheck} {seen : List String} {json : Json}
    {rest : List (String × Json)} {value : Value} (field : StructField Value)
    (known : fields.lookup field.name = some field.check.2) (unseen : field.name ∉ seen)
    (decoded : field.decode json = .ok value)
    (later : visitEntries fields (field.name :: seen) rest = .ok ()) :
    visitEntries fields seen ((field.name, json) :: rest) = .ok () := by
  have passes : field.check.2 json = .ok () := by
    change (fun _ => ()) <$> field.decode json = _
    rw [decoded]
    rfl
  simp only [visitEntries, known, if_neg unseen, passes]
  exact later

/-- A visit that passes also passes when fewer names have been seen. -/
theorem visit_entries_seen_mono {fields : List FieldCheck} {entries : List (String × Json)}
    {seen more : List String} (fewer : ∀ name ∈ seen, name ∈ more)
    (visited : visitEntries fields more entries = .ok ()) :
    visitEntries fields seen entries = .ok () := by
  induction entries generalizing seen more with
  | nil => rfl
  | cons entry rest ih =>
      unfold visitEntries at visited ⊢
      cases known : fields.lookup entry.1 with
      | none =>
          simp only [known] at visited
          exact ih fewer visited
      | some check =>
          simp only [known] at visited ⊢
          by_cases again : entry.1 ∈ more
          · rw [if_pos again] at visited
            cases visited
          · rw [if_neg again] at visited
            rw [if_neg fun already => again (fewer _ already)]
            cases passes : check entry.2 with
            | error failure =>
                rw [passes] at visited
                cases visited
            | ok done =>
                rw [passes] at visited
                apply ih _ visited
                intro name member
                rw [List.mem_cons] at member ⊢
                exact member.imp_right (fewer name)

theorem StructField.read_written (field : StructField Value) {entries : List (String × Json)}
    {json : Json} {value : Value} (found : entries.lookup field.name = some json)
    (decoded : field.decode json = .ok value) : field.read entries = .ok value := by
  rw [StructField.read, found]
  exact decoded

theorem StructField.read_default (field : StructField Value) {entries : List (String × Json)}
    {value : Value} (absent : entries.lookup field.name = none)
    (default : field.fallback = some value) : field.read entries = .ok value := by
  simp only [StructField.read, absent, default]

theorem StructField.read_missing (field : StructField Value) {entries : List (String × Json)}
    (absent : entries.lookup field.name = none) (required : field.fallback = none) :
    field.read entries = .error (.missingField field.name) := by
  simp only [StructField.read, absent, required]

theorem decode_struct_object {expected : String} {fields : List FieldCheck}
    {build : List (String × Json) → Except JsonError Value} {entries : List (String × Json)}
    (visited : visitEntries fields [] entries = .ok ()) :
    decodeStruct expected fields build (.object entries) = build entries := by
  change (visitEntries fields [] entries >>= fun _ => build entries) = _
  rw [visited]
  rfl

end Decoding

end Bertha.JsonStructs
