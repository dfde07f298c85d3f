import Bertha.BlockDb

/-!
# Corrections of accounts

The JSON form of `Correction` in `go/replay/corrections.go`. Storage keys and values are hex
strings on the wire, with an optional prefix, in either case and of any length up to 32 bytes,
so that different strings denote the same key. The decoder writes the entries in the order in
which Go happens to iterate over the map of strings, and the last one written stays.
-/

namespace Bertha.Corrections

open Bertha.BigEndian Bertha.BlockTypes Bertha.OrderedStore
open Bertha.BlockDb (Enumeration)

set_option autoImplicit false

abbrev GoString := Bytes

instance (width : Nat) : Std.TransOrd (FixedBytes width) :=
  inferInstanceAs (Std.TransCmp (compareOn (Subtype.val : FixedBytes width → Bytes)))

instance (width : Nat) : Std.LawfulEqOrd (FixedBytes width) where
  compare_self {bytes} :=
    have same : compare bytes.val bytes.val = .eq := Std.LawfulEqOrd.compare_eq_iff_eq.mpr rfl
    same
  eq_of_compare {left right} same :=
    have bytes : compare left.val right.val = .eq := same
    Subtype.ext (Std.LawfulEqOrd.compare_eq_iff_eq.mp bytes)

/-- `Correction`. A map that is nil is not told from an empty one. -/
structure Correction where
  balance : Option U256
  storage : Store (FixedBytes 32) (FixedBytes 32)

/-- The struct that is encoded and decoded in place of a correction. -/
structure WireCorrection where
  balance : Option U256
  storage : Store GoString GoString

/-- `encoding/json` for the struct, with the JSON form of its balance, and `%q`. -/
structure JsonLibrary where
  marshal : WireCorrection → Except String Bytes
  unmarshal : Bytes → Except String WireCorrection
  quote : GoString → String

/-- The order in which one loop goes through a map. -/
abbrev MapOrder (Key Value : Type) [Ord Key] [Std.TransOrd Key] :=
  (map : Store Key Value) → Enumeration map

/-! ## Hex strings -/

def hexDigit (value : Nat) : UInt8 :=
  if value < 10 then UInt8.ofNat (0x30 + value) else UInt8.ofNat (0x61 + (value - 10))

def encodeToString (bytes : Bytes) : GoString :=
  bytes.flatMap fun byte => [hexDigit (byte.toNat / 16), hexDigit (byte.toNat % 16)]

def reverseHex (digit : UInt8) : Option Nat :=
  if 0x30 ≤ digit ∧ digit ≤ 0x39 then some (digit.toNat - 0x30)
  else if 0x61 ≤ digit ∧ digit ≤ 0x66 then some (digit.toNat - 0x61 + 10)
  else if 0x41 ≤ digit ∧ digit ≤ 0x46 then some (digit.toNat - 0x41 + 10)
  else none

def formatRune (byte : UInt8) : String :=
  let code := "U+00" ++ String.ofList
    [(Nat.digitChar (byte.toNat / 16)).toUpper, (Nat.digitChar (byte.toNat % 16)).toUpper]
  if (0x20 ≤ byte ∧ byte ≤ 0x7e) ∨ (0xa1 ≤ byte ∧ byte ≠ 0xad) then
    code ++ " '" ++ String.singleton (Char.ofNat byte.toNat) ++ "'"
  else code

def invalidByte (byte : UInt8) : String := "encoding/hex: invalid byte: " ++ formatRune byte

def decodeString : GoString → Except String Bytes
  | [] => .ok []
  | [last] =>
      if reverseHex last = none then .error (invalidByte last)
      else .error "encoding/hex: odd length hex string"
  | high :: low :: rest =>
      match reverseHex high with
      | none => .error (invalidByte high)
      | some upper =>
      match reverseHex low with
      | none => .error (invalidByte low)
      | some lower => (UInt8.ofNat (upper * 16 + lower) :: ·) <$> decodeString rest

def trimPrefix (text start : GoString) : GoString :=
  if start.isPrefixOf text then text.drop start.length else text

def decodeHexTo32Bytes (text : GoString) : Except String (FixedBytes 32) :=
  let digits := trimPrefix (trimPrefix text [0x30, 0x78]) [0x30, 0x58]
  if digits.length % 2 = 1 then .error "odd-length hex string"
  else
    match decodeString digits with
    | .error err => .error err
    | .ok bytes =>
        if fits : bytes.length ≤ 32 then
          .ok ⟨List.replicate (32 - bytes.length) 0 ++ bytes, by simp; omega⟩
        else .error s!"value exceeds 32 bytes ({bytes.length})"

/-! ## Encoding and decoding -/

def hexText (bytes : FixedBytes 32) : GoString := [0x30, 0x78] ++ encodeToString bytes.val

def toWire (order : MapOrder (FixedBytes 32) (FixedBytes 32)) (c : Correction) :
    WireCorrection where
  balance := c.balance
  storage := applyBatch ∅
    (putOps ((order c.storage).entries.map fun entry => (hexText entry.1, hexText entry.2)))

def marshalJSON (json : JsonLibrary) (order : MapOrder (FixedBytes 32) (FixedBytes 32))
    (c : Correction) : Except String Bytes :=
  json.marshal (toWire order c)

/-- The loop over the entries of the map of strings. -/
def storeEntries (json : JsonLibrary) : List (GoString × GoString) →
    Store (FixedBytes 32) (FixedBytes 32) →
      Store (FixedBytes 32) (FixedBytes 32) × Except String Unit
  | [], storage => (storage, .ok ())
  | (k, v) :: rest, storage =>
      match decodeHexTo32Bytes k with
      | .error err => (storage, .error s!"invalid storage key {json.quote k}: {err}")
      | .ok key =>
      match decodeHexTo32Bytes v with
      | .error err => (storage, .error s!"invalid storage value {json.quote v}: {err}")
      | .ok value => storeEntries json rest (storage.insert key value)

/-- `UnmarshalJSON` on a correction, which keeps its storage if there is none in the data. -/
def unmarshalJSON (json : JsonLibrary) (order : MapOrder GoString GoString) (c : Correction)
    (data : Bytes) : Correction × Except String Unit :=
  match json.unmarshal data with
  | .error err => (c, .error err)
  | .ok tmp =>
      let c := { c with balance := tmp.balance }
      if tmp.storage.isEmpty then (c, .ok ())
      else
        let (storage, outcome) := storeEntries json (order tmp.storage).entries ∅
        ({ c with storage := storage }, outcome)

/-! ## The hex strings that are written -/

theorem reverse_hex_digit {value : Nat} (small : value < 16) :
    reverseHex (hexDigit value) = some value := by
  have all : ∀ value < 16, reverseHex (hexDigit value) = some value := by decide
  exact all value small

theorem hex_digit_ne_x {value : Nat} (small : value < 16) : hexDigit value ≠ 0x58 := by
  have all : ∀ value < 16, hexDigit value ≠ 0x58 := by decide
  exact all value small

theorem encode_cons (byte : UInt8) (bytes : Bytes) :
    encodeToString (byte :: bytes) =
      hexDigit (byte.toNat / 16) :: hexDigit (byte.toNat % 16) :: encodeToString bytes :=
  rfl

theorem encode_length (bytes : Bytes) : (encodeToString bytes).length = 2 * bytes.length := by
  induction bytes with
  | nil => rfl
  | cons byte bytes inductionHypothesis =>
      rw [encode_cons, List.length_cons, List.length_cons, List.length_cons, inductionHypothesis]
      omega

theorem decode_encode (bytes : Bytes) : decodeString (encodeToString bytes) = .ok bytes := by
  induction bytes with
  | nil => rfl
  | cons byte bytes inductionHypothesis =>
      have bound := byte.toNat_lt
      have whole : UInt8.ofNat (byte.toNat / 16 * 16 + byte.toNat % 16) = byte := by
        rw [Nat.mul_comm, Nat.div_add_mod, UInt8.ofNat_toNat]
      rw [encode_cons, decodeString, reverse_hex_digit (by omega)]
      dsimp only
      rw [reverse_hex_digit (by omega)]
      dsimp only
      rw [inductionHypothesis, whole]
      rfl

theorem decode_hex_text (bytes : FixedBytes 32) :
    decodeHexTo32Bytes (hexText bytes) = .ok bytes := by
  have length := bytes.property
  have trimmed : trimPrefix (trimPrefix (hexText bytes) [0x30, 0x78]) [0x30, 0x58] =
      encodeToString bytes.val := by
    have first : trimPrefix (hexText bytes) [0x30, 0x78] = encodeToString bytes.val := rfl
    have noCapital : ([0x30, 0x58] : GoString).isPrefixOf (encodeToString bytes.val) = false := by
      obtain ⟨byte, rest, same⟩ : ∃ byte rest, bytes.val = byte :: rest :=
        List.exists_cons_of_length_pos (by omega)
      have different := hex_digit_ne_x (Nat.mod_lt byte.toNat (show 0 < 16 by decide))
      rw [same, encode_cons]
      simp [List.isPrefixOf, Ne.symm different]
    rw [first, trimPrefix, noCapital]
    rfl
  have even : ¬ (encodeToString bytes.val).length % 2 = 1 := by
    rw [encode_length]
    omega
  rw [decodeHexTo32Bytes, trimmed, if_neg even, decode_encode]
  dsimp only
  rw [dif_pos length.le]
  congr 1
  apply Subtype.ext
  change List.replicate (32 - bytes.val.length) 0 ++ bytes.val = bytes.val
  rw [length]
  rfl

theorem hex_text_injective : Function.Injective hexText := by
  intro left right same
  have decoded := decode_hex_text left
  rw [same, decode_hex_text] at decoded
  exact (Except.ok.inj decoded).symm

/-! ## The entries -/

def decodeEntry (entry : GoString × GoString) : Option (FixedBytes 32 × FixedBytes 32) :=
  match decodeHexTo32Bytes entry.1, decodeHexTo32Bytes entry.2 with
  | .ok key, .ok value => some (key, value)
  | _, _ => none

theorem store_entries_ok_iff (json : JsonLibrary) (entries : List (GoString × GoString))
    (storage : Store (FixedBytes 32) (FixedBytes 32)) :
    (storeEntries json entries storage).2 = .ok () ↔
      ∀ entry ∈ entries, (decodeEntry entry).isSome = true := by
  induction entries generalizing storage with
  | nil => exact iff_of_true rfl (List.forall_mem_nil _)
  | cons entry entries inductionHypothesis =>
      obtain ⟨k, v⟩ := entry
      rw [storeEntries, List.forall_mem_cons, decodeEntry]
      cases decodeHexTo32Bytes k with
      | error err => exact iff_of_false nofun fun both => nomatch both.1
      | ok key =>
          cases decodeHexTo32Bytes v with
          | error err => exact iff_of_false nofun fun both => nomatch both.1
          | ok value =>
              dsimp only
              rw [inductionHypothesis]
              exact (and_iff_right rfl).symm

theorem store_entries_writes {json : JsonLibrary} {entries : List (GoString × GoString)}
    (valid : ∀ entry ∈ entries, (decodeEntry entry).isSome = true)
    (storage : Store (FixedBytes 32) (FixedBytes 32)) :
    storeEntries json entries storage =
      (applyBatch storage (putOps (entries.filterMap decodeEntry)), .ok ()) := by
  induction entries generalizing storage with
  | nil => rfl
  | cons entry entries inductionHypothesis =>
      obtain ⟨k, v⟩ := entry
      obtain ⟨first, rest⟩ := List.forall_mem_cons.mp valid
      rw [storeEntries, List.filterMap_cons]
      rw [decodeEntry] at first ⊢
      cases decodedKey : decodeHexTo32Bytes k with
      | error err => simp [decodedKey] at first
      | ok key =>
          cases decodedValue : decodeHexTo32Bytes v with
          | error err => simp [decodedKey, decodedValue] at first
          | ok value =>
              dsimp only
              rw [inductionHypothesis rest]
              rfl

/-- The condition on the data under which the order decides: it is accepted, and two of its
entries have the same key and different values. -/
def Ambiguous (json : JsonLibrary) (data : Bytes) : Prop :=
  ∃ tmp, json.unmarshal data = .ok tmp ∧
    (∀ entry ∈ tmp.storage.toList, (decodeEntry entry).isSome = true) ∧
    ∃ first ∈ tmp.storage.toList, ∃ second ∈ tmp.storage.toList,
      decodeHexTo32Bytes first.1 = decodeHexTo32Bytes second.1 ∧
        decodeHexTo32Bytes first.2 ≠ decodeHexTo32Bytes second.2

/-- What is decoded from data that is accepted does not depend on the order of the loop. -/
def Deterministic (json : JsonLibrary) (c : Correction) (data : Bytes) : Prop :=
  ∀ first second : MapOrder GoString GoString, (unmarshalJSON json first c data).2 = .ok () →
    unmarshalJSON json second c data = unmarshalJSON json first c data

def lastOrder (entry : GoString × GoString) : MapOrder GoString GoString := fun map =>
  if member : entry ∈ map.toList then
    { entries := map.toList.erase entry ++ [entry]
      permutes := (List.perm_append_singleton _ _).trans (List.perm_cons_erase member).symm }
  else ⟨map.toList, List.Perm.refl _⟩

theorem last_order_entries {entry : GoString × GoString} {map : Store GoString GoString}
    (member : entry ∈ map.toList) :
    (lastOrder entry map).entries = map.toList.erase entry ++ [entry] := by
  rw [lastOrder, dif_pos member]

theorem decode_entry_eq_some {entry : GoString × GoString} {key value : FixedBytes 32} :
    decodeEntry entry = some (key, value) ↔
      decodeHexTo32Bytes entry.1 = .ok key ∧ decodeHexTo32Bytes entry.2 = .ok value := by
  rw [decodeEntry]
  cases decodeHexTo32Bytes entry.1 <;> cases decodeHexTo32Bytes entry.2 <;> simp

def Agree (entries : List (GoString × GoString)) : Prop :=
  ∀ first ∈ entries, ∀ second ∈ entries,
    decodeHexTo32Bytes first.1 = decodeHexTo32Bytes second.1 →
      decodeHexTo32Bytes first.2 = decodeHexTo32Bytes second.2

theorem functional_entries {entries : List (GoString × GoString)} (agree : Agree entries) :
    ∀ first ∈ entries.filterMap decodeEntry, ∀ second ∈ entries.filterMap decodeEntry,
      first.1 = second.1 → first.2 = second.2 := by
  intro first firstMember second secondMember same
  obtain ⟨earlier, earlierMember, earlierDecoded⟩ := List.mem_filterMap.mp firstMember
  obtain ⟨later, laterMember, laterDecoded⟩ := List.mem_filterMap.mp secondMember
  obtain ⟨earlierKey, earlierValue⟩ := decode_entry_eq_some.mp earlierDecoded
  obtain ⟨laterKey, laterValue⟩ := decode_entry_eq_some.mp laterDecoded
  have values := agree earlier earlierMember later laterMember
    (by rw [earlierKey, laterKey, same])
  rw [earlierValue, laterValue] at values
  exact Except.ok.inj values

theorem store_same {left right : List (FixedBytes 32 × FixedBytes 32)}
    (leftFunctional : ∀ first ∈ left, ∀ second ∈ left, first.1 = second.1 → first.2 = second.2)
    (rightFunctional : ∀ first ∈ right, ∀ second ∈ right,
      first.1 = second.1 → first.2 = second.2)
    (same : ∀ entry, entry ∈ left ↔ entry ∈ right) :
    applyBatch (∅ : Store (FixedBytes 32) (FixedBytes 32)) (putOps left) =
      applyBatch ∅ (putOps right) := by
  apply store_ext
  intro key
  apply Option.ext
  intro value
  rw [get_put_ops_iff leftFunctional, get_put_ops_iff rightFunctional]
  exact same (key, value)

theorem store_entries_order {json : JsonLibrary} {map : Store GoString GoString}
    (valid : ∀ entry ∈ map.toList, (decodeEntry entry).isSome = true) (agree : Agree map.toList)
    (order : MapOrder GoString GoString) :
    storeEntries json (order map).entries ∅ =
      (applyBatch ∅ (putOps (map.toList.filterMap decodeEntry)), .ok ()) := by
  have perm := (order map).permutes
  have orderAgree : Agree (order map).entries := fun first firstMember second secondMember =>
    agree first (perm.mem_iff.mp firstMember) second (perm.mem_iff.mp secondMember)
  rw [store_entries_writes fun entry member => valid entry (perm.mem_iff.mp member)]
  have same : applyBatch (∅ : Store (FixedBytes 32) (FixedBytes 32))
      (putOps ((order map).entries.filterMap decodeEntry)) =
        applyBatch ∅ (putOps (map.toList.filterMap decodeEntry)) :=
    store_same (functional_entries orderAgree) (functional_entries agree) fun _ =>
      (perm.filterMap decodeEntry).mem_iff
  rw [same]

theorem deterministic_of_not_ambiguous {json : JsonLibrary} {data : Bytes}
    (unambiguous : ¬ Ambiguous json data) (c : Correction) : Deterministic json c data := by
  intro first second accepted
  rw [unmarshalJSON] at accepted ⊢
  rw [unmarshalJSON]
  cases parsed : json.unmarshal data with
  | error err => rfl
  | ok tmp =>
      rw [parsed] at accepted
      dsimp only at accepted ⊢
      by_cases empty : tmp.storage.isEmpty = true
      · rw [if_pos empty, if_pos empty]
      · rw [if_neg empty] at accepted ⊢
        rw [if_neg empty]
        have valid : ∀ entry ∈ tmp.storage.toList, (decodeEntry entry).isSome = true :=
          fun entry member => (store_entries_ok_iff json _ ∅).mp accepted entry
            ((first tmp.storage).permutes.mem_iff.mpr member)
        have agree : Agree tmp.storage.toList := by
          intro earlier earlierMember later laterMember same
          by_contra different
          exact unambiguous ⟨tmp, parsed, valid, earlier, earlierMember, later, laterMember,
            same, different⟩
        rw [store_entries_order valid agree first, store_entries_order valid agree second]

theorem unmarshal_last {json : JsonLibrary} {data : Bytes} {tmp : WireCorrection}
    (parsed : json.unmarshal data = .ok tmp)
    (valid : ∀ entry ∈ tmp.storage.toList, (decodeEntry entry).isSome = true)
    {entry : GoString × GoString} (member : entry ∈ tmp.storage.toList)
    {key value : FixedBytes 32} (decoded : decodeEntry entry = some (key, value))
    (c : Correction) :
    (unmarshalJSON json (lastOrder entry) c data).2 = .ok () ∧
      (unmarshalJSON json (lastOrder entry) c data).1.storage[key]? = some value := by
  have filled : ¬ tmp.storage.isEmpty = true := by
    intro empty
    have stored : tmp.storage[entry.1]? = some entry.2 :=
      Std.ExtTreeMap.mem_toList_iff_getElem?_eq_some.mp member
    rw [Std.ExtTreeMap.isEmpty_iff.mp empty, Std.ExtTreeMap.getElem?_empty] at stored
    cases stored
  have orderValid : ∀ other ∈ (lastOrder entry tmp.storage).entries,
      (decodeEntry other).isSome = true := fun other inOrder =>
    valid other ((lastOrder entry tmp.storage).permutes.mem_iff.mp inOrder)
  have result : unmarshalJSON json (lastOrder entry) c data =
      (⟨tmp.balance, applyBatch ∅
        (putOps ((lastOrder entry tmp.storage).entries.filterMap decodeEntry))⟩, .ok ()) := by
    rw [unmarshalJSON, parsed]
    dsimp only
    rw [if_neg filled, store_entries_writes orderValid]
  rw [result, last_order_entries member, List.filterMap_append, List.filterMap_cons, decoded]
  exact ⟨rfl, get_put_ops_last _ key value ∅⟩

theorem deterministic_iff (json : JsonLibrary) (c : Correction) (data : Bytes) :
    Deterministic json c data ↔ ¬ Ambiguous json data := by
  constructor
  · rintro deterministic ⟨tmp, parsed, valid, first, firstMember, second, secondMember, keys,
      values⟩
    obtain ⟨⟨key, firstValue⟩, firstDecoded⟩ :=
      Option.isSome_iff_exists.mp (valid first firstMember)
    obtain ⟨⟨otherKey, secondValue⟩, secondDecoded⟩ :=
      Option.isSome_iff_exists.mp (valid second secondMember)
    obtain ⟨firstKeyIs, firstValueIs⟩ := decode_entry_eq_some.mp firstDecoded
    obtain ⟨secondKeyIs, secondValueIs⟩ := decode_entry_eq_some.mp secondDecoded
    obtain rfl : key = otherKey := by
      rw [firstKeyIs, secondKeyIs] at keys
      exact Except.ok.inj keys
    obtain ⟨accepted, firstStored⟩ := unmarshal_last parsed valid firstMember firstDecoded c
    obtain ⟨_, secondStored⟩ := unmarshal_last parsed valid secondMember secondDecoded c
    have same := deterministic (lastOrder first) (lastOrder second) accepted
    rw [same, firstStored] at secondStored
    apply values
    rw [firstValueIs, secondValueIs, Option.some.inj secondStored]
  · intro unambiguous
    exact deterministic_of_not_ambiguous unambiguous c

/-! ## Round trips -/

/-- What `encoding/json` is relied on for: it reads back the struct that it has written. -/
def ReadsBack (json : JsonLibrary) (tmp : WireCorrection) : Prop :=
  ∃ data, json.marshal tmp = .ok data ∧ json.unmarshal data = .ok tmp

def hexEntry (entry : FixedBytes 32 × FixedBytes 32) : GoString × GoString :=
  (hexText entry.1, hexText entry.2)

theorem decode_hex_entry (entry : FixedBytes 32 × FixedBytes 32) :
    decodeEntry (hexEntry entry) = some entry :=
  decode_entry_eq_some.mpr ⟨decode_hex_text entry.1, decode_hex_text entry.2⟩

theorem mem_wire (order : MapOrder (FixedBytes 32) (FixedBytes 32)) (c : Correction)
    (entry : GoString × GoString) :
    entry ∈ (toWire order c).storage.toList ↔
      ∃ stored ∈ c.storage.toList, hexEntry stored = entry := by
  have functional : ∀ first ∈ (order c.storage).entries.map hexEntry,
      ∀ second ∈ (order c.storage).entries.map hexEntry,
        first.1 = second.1 → first.2 = second.2 := by
    intro first firstMember second secondMember same
    obtain ⟨earlier, earlierMember, rfl⟩ := List.mem_map.mp firstMember
    obtain ⟨later, laterMember, rfl⟩ := List.mem_map.mp secondMember
    have keys : earlier.1 = later.1 := hex_text_injective same
    have earlierStored := (order c.storage).mem_iff.mp earlierMember
    have laterStored := (order c.storage).mem_iff.mp laterMember
    rw [keys, laterStored] at earlierStored
    rw [hexEntry, hexEntry, Option.some.inj earlierStored]
  have stored : (toWire order c).storage[entry.1]? = some entry.2 ↔
      (entry.1, entry.2) ∈ (order c.storage).entries.map hexEntry :=
    get_put_ops_iff functional entry.1 entry.2
  rw [← List.mem_map, ← ((order c.storage).permutes.map hexEntry).mem_iff]
  exact Std.ExtTreeMap.mem_toList_iff_getElem?_eq_some.trans stored

theorem wire_entries (order : MapOrder (FixedBytes 32) (FixedBytes 32)) (c : Correction) :
    (∀ entry ∈ (toWire order c).storage.toList, (decodeEntry entry).isSome = true) ∧
      Agree (toWire order c).storage.toList ∧
      applyBatch ∅ (putOps ((toWire order c).storage.toList.filterMap decodeEntry)) =
        c.storage := by
  have valid : ∀ entry ∈ (toWire order c).storage.toList, (decodeEntry entry).isSome = true := by
    intro entry member
    obtain ⟨stored, _, rfl⟩ := (mem_wire order c entry).mp member
    rw [decode_hex_entry]
    rfl
  have mem_decoded (key value : FixedBytes 32) :
      (key, value) ∈ (toWire order c).storage.toList.filterMap decodeEntry ↔
        c.storage[key]? = some value := by
    rw [List.mem_filterMap, ← Std.ExtTreeMap.mem_toList_iff_getElem?_eq_some]
    constructor
    · rintro ⟨entry, member, decoded⟩
      obtain ⟨stored, inStorage, rfl⟩ := (mem_wire order c entry).mp member
      rw [decode_hex_entry, Option.some.injEq] at decoded
      rwa [← decoded]
    · intro member
      exact ⟨hexEntry (key, value), (mem_wire order c _).mpr ⟨_, member, rfl⟩,
        decode_hex_entry (key, value)⟩
  have agree : Agree (toWire order c).storage.toList := by
    intro first firstMember second secondMember same
    obtain ⟨earlier, earlierMember, rfl⟩ := (mem_wire order c first).mp firstMember
    obtain ⟨later, laterMember, rfl⟩ := (mem_wire order c second).mp secondMember
    rw [hexEntry, hexEntry, decode_hex_text, decode_hex_text, Except.ok.injEq] at same
    have earlierStored := Std.ExtTreeMap.mem_toList_iff_getElem?_eq_some.mp earlierMember
    have laterStored := Std.ExtTreeMap.mem_toList_iff_getElem?_eq_some.mp laterMember
    rw [same, laterStored] at earlierStored
    rw [hexEntry, hexEntry, Option.some.inj earlierStored]
  refine ⟨valid, agree, store_ext fun key => Option.ext fun value => ?_⟩
  rw [get_put_ops_iff (functional_entries agree)]
  exact mem_decoded key value

/-- What is written for a correction is read back as that correction, in whatever orders the
loops go through the maps. -/
theorem correction_read_back {json : JsonLibrary} {c : Correction}
    {encodeOrder : MapOrder (FixedBytes 32) (FixedBytes 32)}
    (readsBack : ReadsBack json (toWire encodeOrder c)) (decodeOrder : MapOrder GoString GoString)
    {receiver : Correction} (fresh : receiver.storage = ∅) :
    ∃ data, marshalJSON json encodeOrder c = .ok data ∧
      unmarshalJSON json decodeOrder receiver data = (c, .ok ()) := by
  obtain ⟨data, written, parsed⟩ := readsBack
  obtain ⟨valid, agree, storage⟩ := wire_entries encodeOrder c
  refine ⟨data, written, ?_⟩
  rw [unmarshalJSON, parsed]
  dsimp only
  by_cases empty : (toWire encodeOrder c).storage.isEmpty = true
  · have nothing : c.storage = ∅ := by
      rw [← storage, Std.ExtTreeMap.isEmpty_iff.mp empty]
      rfl
    rw [if_pos empty, fresh, ← nothing]
    rfl
  · rw [if_neg empty, store_entries_order valid agree decodeOrder, storage]
    rfl

/-- Corrections are read back as they were written, and data that is accepted gives the same
correction in every order unless two of its entries have the same key and different values. -/
theorem corrections_decode_iff (json : JsonLibrary) :
    (∀ (c : Correction) (encodeOrder : MapOrder (FixedBytes 32) (FixedBytes 32)),
      ReadsBack json (toWire encodeOrder c) →
        ∀ (decodeOrder : MapOrder GoString GoString) (receiver : Correction),
          receiver.storage = ∅ → ∃ data, marshalJSON json encodeOrder c = .ok data ∧
            unmarshalJSON json decodeOrder receiver data = (c, .ok ())) ∧
      ∀ (c : Correction) (data : Bytes), Deterministic json c data ↔ ¬ Ambiguous json data := by
  constructor
  · intro c encodeOrder readsBack decodeOrder receiver fresh
    exact correction_read_back readsBack decodeOrder fresh
  · exact deterministic_iff json

/-! ## Two inputs -/

def ascii (text : String) : GoString := text.toUTF8.toList

def smallWord (value : UInt8) : FixedBytes 32 := ⟨List.replicate 31 0 ++ [value], rfl⟩

def zeroDigits : String := "0x" ++ String.ofList (List.replicate 63 '0')

def listOrder (Key Value : Type) [Ord Key] [Std.TransOrd Key] : MapOrder Key Value :=
  fun map => ⟨map.toList, List.Perm.refl _⟩

def sampleCorrection : Correction :=
  ⟨some 12345, (∅ : Store (FixedBytes 32) (FixedBytes 32)).insert (smallWord 1) (smallWord 2)⟩

def sampleWire : WireCorrection := toWire (listOrder _ _) sampleCorrection

def sampleData : Bytes :=
  ascii ("\x7b\"Balance\":\"12345\",\"Storage\":\x7b\"" ++ zeroDigits ++ "1\":\"" ++
    zeroDigits ++ "2\"\x7d\x7d")

def ambiguousData : Bytes :=
  ascii "\x7b\"Storage\":\x7b\"0x01\":\"0x02\",\"01\":\"0x03\"\x7d\x7d"

def ambiguousWire : WireCorrection :=
  ⟨none, ((∅ : Store GoString GoString).insert (ascii "0x01") (ascii "0x02")).insert (ascii "01")
    (ascii "0x03")⟩

def plainJson : JsonLibrary where
  marshal tmp :=
    if tmp.balance = sampleWire.balance ∧ tmp.storage.toList = sampleWire.storage.toList then
      .ok sampleData
    else .error "unsupported value"
  unmarshal data :=
    if data = sampleData then .ok sampleWire
    else if data = ambiguousData then .ok ambiguousWire
    else .error "invalid character"
  quote text := String.ofList (text.map fun byte => Char.ofNat byte.toNat)

theorem corrections_decode_plain :
    ∃ data, marshalJSON plainJson (listOrder _ _) sampleCorrection = .ok data ∧
      unmarshalJSON plainJson (listOrder _ _) ⟨none, ∅⟩ data = (sampleCorrection, .ok ()) := by
  have written : plainJson.marshal sampleWire = .ok sampleData := by
    rw [plainJson]
    dsimp only
    rw [if_pos ⟨rfl, rfl⟩]
  have parsed : plainJson.unmarshal sampleData = .ok sampleWire := by
    rw [plainJson]
    dsimp only
    rw [if_pos rfl]
  have readsBack : ReadsBack plainJson (toWire (listOrder _ _) sampleCorrection) :=
    ⟨sampleData, written, parsed⟩
  exact (corrections_decode_iff plainJson).1 sampleCorrection _ readsBack (listOrder _ _) _ rfl

/-- The same data stores 2 or 3 under the key 1. -/
theorem corrections_decode_ambiguous :
    let first := unmarshalJSON plainJson (lastOrder (ascii "0x01", ascii "0x02")) ⟨none, ∅⟩
      ambiguousData
    let second := unmarshalJSON plainJson (lastOrder (ascii "01", ascii "0x03")) ⟨none, ∅⟩
      ambiguousData
    first.2 = .ok () ∧ first.1.storage[smallWord 1]? = some (smallWord 2) ∧
      second.2 = .ok () ∧ second.1.storage[smallWord 1]? = some (smallWord 3) ∧
      ¬ Deterministic plainJson ⟨none, ∅⟩ ambiguousData := by
  intro first second
  have parsed : plainJson.unmarshal ambiguousData = .ok ambiguousWire := by
    rw [plainJson]
    dsimp only
    rw [if_neg (by decide +kernel), if_pos rfl]
  have entries : ambiguousWire.storage.toList =
      [(ascii "01", ascii "0x03"), (ascii "0x01", ascii "0x02")] := by decide +kernel
  have valid : ∀ entry ∈ ambiguousWire.storage.toList, (decodeEntry entry).isSome = true := by
    decide +kernel
  obtain ⟨firstAccepted, firstStored⟩ := unmarshal_last parsed valid
    (show (ascii "0x01", ascii "0x02") ∈ ambiguousWire.storage.toList by simp [entries])
    (show decodeEntry _ = some (smallWord 1, smallWord 2) by decide +kernel) ⟨none, ∅⟩
  obtain ⟨secondAccepted, secondStored⟩ := unmarshal_last parsed valid
    (show (ascii "01", ascii "0x03") ∈ ambiguousWire.storage.toList by simp [entries])
    (show decodeEntry _ = some (smallWord 1, smallWord 3) by decide +kernel) ⟨none, ∅⟩
  refine ⟨firstAccepted, firstStored, secondAccepted, secondStored, fun deterministic => ?_⟩
  have same : second = first := deterministic _ _ firstAccepted
  change second.1.storage[smallWord 1]? = _ at secondStored
  rw [same, firstStored] at secondStored
  exact absurd secondStored (by decide)

end Bertha.Corrections
