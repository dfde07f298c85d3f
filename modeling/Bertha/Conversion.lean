import Mathlib

/-!
# Exact conversions between two representations

A total encoding and a checked decoding that invert each other: decoding an
encoding succeeds with the same value, and whatever decodes was the encoding of
its value, so nothing is dropped, defaulted or accepted twice. The property lifts
to lists and to optional values.
-/

namespace Bertha.Conversion

set_option autoImplicit false

universe u v w

variable {Value Result : Type u} {Message : Type v} {Failure : Type w}

theorem bind_eq_ok {first : Except Failure Value} {next : Value → Except Failure Result}
    {result : Result} :
    (first >>= next) = .ok result ↔ ∃ value, first = .ok value ∧ next value = .ok result := by
  cases first with
  | error failure =>
      constructor
      · intro impossible
        cases impossible
      · rintro ⟨value, impossible, -⟩
        cases impossible
  | ok value =>
      constructor
      · intro holds
        exact ⟨value, rfl, holds⟩
      · rintro ⟨other, same, holds⟩
        cases same
        exact holds

theorem map_error_eq_ok {Changed : Type*} {value : Except Failure Value}
    {change : Failure → Changed} {result : Value} :
    value.mapError change = .ok result ↔ value = .ok result := by
  cases value <;> simp [Except.mapError]

/-- `decode` accepts exactly the values of `encode` and undoes it there. -/
structure Inverts (encode : Value → Message) (decode : Message → Except Failure Value) :
    Prop where
  decode_encode : ∀ value, decode (encode value) = .ok value
  encode_decode : ∀ {message value}, decode message = .ok value → encode value = message

variable {encode : Value → Message} {decode : Message → Except Failure Value}

theorem Inverts.list (inverts : Inverts encode decode) :
    Inverts (List.map encode) (List.mapM decode) := by
  constructor
  · intro values
    induction values with
    | nil => rfl
    | cons value values ih =>
        rw [List.map_cons, List.mapM_cons, inverts.decode_encode, ih]
        rfl
  · intro messages
    induction messages with
    | nil =>
        intro values decoded
        cases decoded
        rfl
    | cons message messages ih =>
        intro values decoded
        rw [List.mapM_cons, bind_eq_ok] at decoded
        obtain ⟨value, head, rest⟩ := decoded
        obtain ⟨others, tail, same⟩ := bind_eq_ok.mp rest
        cases same
        rw [List.map_cons, inverts.encode_decode head, ih tail]

theorem Inverts.option (inverts : Inverts encode decode) :
    Inverts (Option.map encode) (Option.mapM decode) := by
  constructor
  · intro value
    cases value with
    | none => rfl
    | some value =>
        simp only [Option.map_some, Option.mapM_some, inverts.decode_encode]
        rfl
  · intro message value decoded
    cases message with
    | none =>
        cases decoded
        rfl
    | some message =>
        simp only [Option.mapM_some] at decoded
        obtain ⟨inner, head, same⟩ := bind_eq_ok.mp decoded
        cases same
        rw [Option.map_some, inverts.encode_decode head]

end Bertha.Conversion
