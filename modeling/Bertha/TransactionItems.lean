import Bertha.GenesisBlocks
import Bertha.GenesisUnits
import Bertha.RlpReencoding

/-!
# Encodings that are accepted as transactions

`parse_transactions` of `genesis-parser/src/era_dir/era.rs` and the decoder of
`RlpTransaction` in `g_file/block.rs`, for every input that they accept. The first drops what
stands behind a transaction, and 256-bit integers are read with leading zeros, so more than
one encoding is accepted for a transaction. The second skips the header of a wrapped
transaction without comparing the announced length with what is read.
-/

namespace Bertha.TransactionItems

open Bertha.BigEndian Bertha.BlockTypes Bertha.Conversion Bertha.GenesisBlocks
open Bertha.GenesisUnits Bertha.Headers Bertha.Rlp Bertha.RlpFields Bertha.RlpItems
open Bertha.RlpReencoding Bertha.TransactionRlp

set_option autoImplicit false

/-- `parse_transactions`, which drops what `unmarshal` leaves of each input. -/
def parseTransactions (inputs : List Bytes) : Except GenesisUnits.Error (List Transaction) :=
  (inputs.mapM fun input => Prod.fst <$> Transaction.unmarshal input).mapError .rlp

def authorizationTests : List (Bytes → Bool) :=
  [shortest, unchecked, unchecked, unchecked, shortest, shortest]

def legacyTests : List (Bytes → Bool) :=
  [unchecked, shortest, unchecked, unchecked, shortest, unchecked, shortest, shortest, shortest]

def accessListTests : List (Bytes → Bool) :=
  [shortest, unchecked, shortest, unchecked, unchecked, shortest, unchecked, unchecked,
    shortest, shortest, shortest]

def dynamicFeeTests : List (Bytes → Bool) :=
  [shortest, unchecked, shortest, shortest, unchecked, unchecked, shortest, unchecked, unchecked,
    shortest, shortest, shortest]

def blobTests : List (Bytes → Bool) :=
  [shortest, unchecked, shortest, shortest, unchecked, unchecked, shortest, unchecked, unchecked,
    shortest, unchecked, shortest, shortest, shortest]

def setCodeTests : List (Bytes → Bool) :=
  [shortest, unchecked, shortest, shortest, unchecked, unchecked, shortest, unchecked, unchecked,
    listOf (structOf authorizationTests), shortest, shortest, shortest]

def transactionItem (input : Bytes) : Bytes :=
  match input with
  | [] => []
  | code :: rest => if code > 0x7f then input else rest

/-- No 256-bit integer of the transaction has a leading zero byte. -/
def numbersShortest (input : Bytes) : Bool :=
  match input with
  | [] => true
  | code :: rest =>
    if code > 0x7f then structOf legacyTests input
    else match code with
      | 1 => structOf accessListTests rest
      | 2 => structOf dynamicFeeTests rest
      | 3 => structOf blobTests rest
      | 4 => structOf setCodeTests rest
      | _ => true

/-- Nothing stands behind the list of the transaction, and its integers are written with their
shortest digits. -/
def ExactEncoding (input : Bytes) : Prop :=
  OneItem (transactionItem input) ∧ numbersShortest input = true

instance (input : Bytes) : Decidable (ExactEncoding input) :=
  inferInstanceAs (Decidable (_ ∧ _))

def behindItem (input : Bytes) : Option Bytes :=
  (itemLength input).map fun length => input.drop length

/-- The first item is a list, or a string that a type byte and one item fill. -/
def wrapsOneItem (input : Bytes) : Bool :=
  match Header.decode input with
  | .ok (header, remaining) =>
    header.list || decide (OneItem (transactionItem (remaining.take header.payloadLength)))
  | .error _ => false

section Layouts

theorem reencodes_access_list :
    Reencodes (decodeVec decodeAccessListEntry)
      (fun entries => encodeList (entries.map encodeAccessListEntry)) unchecked := by
  have entry : Reencodes decodeAccessListEntry encodeAccessListEntry
      (structOf [unchecked, listOf unchecked]) := by
    apply Reencodes.struct
    refine ReadsFields.bind (.fixed 20) fun address => ?_
    refine ReadsFields.bind (.vec (.fixed 32)) fun storageKeys => ?_
    exact ReadsFields.pure rfl
  have passes : ∀ item, structOf [unchecked, listOf unchecked] item = unchecked item := by
    intro item
    unfold structOf
    rcases listItems item with _ | ⟨first, _ | ⟨second, others⟩⟩ <;>
      simp [fieldsPass, list_of_unchecked, unchecked]
  exact (Reencodes.vec (entry.congr passes)).congr list_of_unchecked

theorem reencodes_authorization :
    Reencodes decodeAuthorization encodeAuthorization (structOf authorizationTests) := by
  apply Reencodes.struct
  refine ReadsFields.bind .u256 fun chainId => ?_
  refine ReadsFields.bind (.fixed 20) fun address => ?_
  refine ReadsFields.bind .u64 fun nonce => ?_
  refine ReadsFields.bind .u8 fun yParity => ?_
  refine ReadsFields.bind .u256 fun r => ?_
  refine ReadsFields.bind .u256 fun s => ?_
  exact ReadsFields.pure rfl

theorem reencodes_hashes :
    Reencodes (decodeVec (decodeFixed 32))
      (fun hashes : List Hash => encodeList (hashes.map encodeFixed)) unchecked :=
  (Reencodes.vec (.fixed 32)).congr list_of_unchecked

theorem reads_signature {Layout : Type} {build : U256 → U256 → U256 → Layout}
    {encodings : Layout → List Bytes} {before : List Bytes}
    (complete : ∀ yParity r s, encodings (build yParity r s) =
      before ++ [encodeU256 yParity] ++ [encodeU256 r] ++ [encodeU256 s]) :
    ReadsFields (do
        let yParity ← decodeU256
        let r ← decodeU256
        let s ← decodeU256
        return build yParity r s)
      encodings before [shortest, shortest, shortest] := by
  refine ReadsFields.bind .u256 fun yParity => ?_
  refine ReadsFields.bind .u256 fun r => ?_
  refine ReadsFields.bind .u256 fun s => ?_
  exact ReadsFields.pure (complete yParity r s)

theorem reencodes_legacy_tx :
    Reencodes LegacyTx.decode LegacyTx.encode (structOf legacyTests) := by
  apply Reencodes.struct
  refine ReadsFields.bind .u64 fun nonce => ?_
  refine ReadsFields.bind .u256 fun gasPrice => ?_
  refine ReadsFields.bind .u64 fun gasLimit => ?_
  refine ReadsFields.bind (.nil (.fixed 20)) fun toAddress => ?_
  refine ReadsFields.bind .u256 fun value => ?_
  refine ReadsFields.bind .string fun data => ?_
  exact reads_signature fun _ _ _ => rfl

theorem reencodes_access_list_tx :
    Reencodes AccessListTx.decode AccessListTx.encode (structOf accessListTests) := by
  apply Reencodes.struct
  refine ReadsFields.bind .u256 fun chainId => ?_
  refine ReadsFields.bind .u64 fun nonce => ?_
  refine ReadsFields.bind .u256 fun gasPrice => ?_
  refine ReadsFields.bind .u64 fun gasLimit => ?_
  refine ReadsFields.bind (.nil (.fixed 20)) fun toAddress => ?_
  refine ReadsFields.bind .u256 fun value => ?_
  refine ReadsFields.bind .string fun data => ?_
  refine ReadsFields.bind reencodes_access_list fun accessList => ?_
  exact reads_signature fun _ _ _ => rfl

theorem reencodes_dynamic_fee_tx :
    Reencodes DynamicFeeTx.decode DynamicFeeTx.encode (structOf dynamicFeeTests) := by
  apply Reencodes.struct
  refine ReadsFields.bind .u256 fun chainId => ?_
  refine ReadsFields.bind .u64 fun nonce => ?_
  refine ReadsFields.bind .u256 fun maxPriorityFeePerGas => ?_
  refine ReadsFields.bind .u256 fun maxFeePerGas => ?_
  refine ReadsFields.bind .u64 fun gasLimit => ?_
  refine ReadsFields.bind (.nil (.fixed 20)) fun toAddress => ?_
  refine ReadsFields.bind .u256 fun value => ?_
  refine ReadsFields.bind .string fun data => ?_
  refine ReadsFields.bind reencodes_access_list fun accessList => ?_
  exact reads_signature fun _ _ _ => rfl

theorem reencodes_blob_tx : Reencodes BlobTx.decode BlobTx.encode (structOf blobTests) := by
  apply Reencodes.struct
  refine ReadsFields.bind .u256 fun chainId => ?_
  refine ReadsFields.bind .u64 fun nonce => ?_
  refine ReadsFields.bind .u256 fun maxPriorityFeePerGas => ?_
  refine ReadsFields.bind .u256 fun maxFeePerGas => ?_
  refine ReadsFields.bind .u64 fun gasLimit => ?_
  refine ReadsFields.bind (.fixed 20) fun toAddress => ?_
  refine ReadsFields.bind .u256 fun value => ?_
  refine ReadsFields.bind .string fun data => ?_
  refine ReadsFields.bind reencodes_access_list fun accessList => ?_
  refine ReadsFields.bind .u256 fun maxFeePerBlobGas => ?_
  refine ReadsFields.bind reencodes_hashes fun blobVersionedHashes => ?_
  exact reads_signature fun _ _ _ => rfl

theorem reencodes_set_code_tx :
    Reencodes SetCodeTx.decode SetCodeTx.encode (structOf setCodeTests) := by
  apply Reencodes.struct
  refine ReadsFields.bind .u256 fun chainId => ?_
  refine ReadsFields.bind .u64 fun nonce => ?_
  refine ReadsFields.bind .u256 fun maxPriorityFeePerGas => ?_
  refine ReadsFields.bind .u256 fun maxFeePerGas => ?_
  refine ReadsFields.bind .u64 fun gasLimit => ?_
  refine ReadsFields.bind (.fixed 20) fun toAddress => ?_
  refine ReadsFields.bind .u256 fun value => ?_
  refine ReadsFields.bind .string fun data => ?_
  refine ReadsFields.bind reencodes_access_list fun accessList => ?_
  refine ReadsFields.bind (.vec reencodes_authorization) fun authorizationList => ?_
  exact reads_signature fun _ _ _ => rfl

end Layouts

theorem layout_written_iff {Layout : Type} {decode : Decoder Layout} {encode : Layout → Bytes}
    {test : Bytes → Bool} (reencodes : Reencodes decode encode test)
    {convert : Layout → Transaction} {input rest : Bytes} {tx : Transaction}
    (decodes : (convert <$> decode) input = .ok (tx, rest)) :
    ∃ layout item, convert layout = tx ∧ input = item ++ rest ∧ OneItem item ∧
      (encode layout = input ↔ OneItem input ∧ test input = true) := by
  obtain ⟨layout, reads, converted⟩ := decoder_map_ok decodes
  obtain ⟨item, whole, one, shorter, written⟩ := reencodes input layout rest reads
  refine ⟨layout, item, converted, whole, one, ?_⟩
  cases rest with
  | nil =>
      rw [List.append_nil] at whole
      rw [whole, written, and_iff_right one]
  | cons byte others =>
      apply iff_of_false
      · intro same
        have lengths := congrArg List.length (same.trans whole)
        rw [List.length_append, List.length_cons] at lengths
        omega
      · rintro ⟨all, -⟩
        have appended : item ++ byte :: others = input ++ [] := by rw [whole, List.append_nil]
        cases (one.unique all appended).2

theorem typed_written_iff {Layout : Type} {decode : Decoder Layout} {encode : Layout → Bytes}
    {test : Bytes → Bool} (reencodes : Reencodes decode encode test)
    {convert : Layout → Transaction} {code : UInt8} {input rest : Bytes} {tx : Transaction}
    (marshals : ∀ layout, Transaction.marshal (convert layout) = code :: encode layout)
    (decodes : (convert <$> decode) input = .ok (tx, rest)) :
    (∃ item, input = item ++ rest ∧ OneItem item) ∧
      (Transaction.marshal tx = code :: input ↔ OneItem input ∧ test input = true) := by
  obtain ⟨layout, item, converted, whole, one, written⟩ := layout_written_iff reencodes decodes
  refine ⟨⟨item, whole, one⟩, ?_⟩
  rw [← converted, marshals, List.cons.injEq, ← written]
  exact and_iff_right rfl

/-- A transaction is read from one item behind its type byte, and the input is its encoding
exactly if it is an exact one. -/
theorem unmarshal_item {input rest : Bytes} {tx : Transaction}
    (accepted : Transaction.unmarshal input = .ok (tx, rest)) :
    (∃ item, transactionItem input = item ++ rest ∧ OneItem item) ∧
      (Transaction.marshal tx = input ↔ ExactEncoding input) := by
  cases input with
  | nil => cases accepted
  | cons code others =>
      by_cases legacy : code > 0x7f
      · simp only [Transaction.unmarshal, if_pos legacy] at accepted
        simp only [transactionItem, ExactEncoding, numbersShortest, if_pos legacy]
        obtain ⟨layout, item, converted, whole, one, written⟩ :=
          layout_written_iff reencodes_legacy_tx accepted
        refine ⟨⟨item, whole, one⟩, ?_⟩
        rw [← converted, ← written]
        rfl
      · simp only [Transaction.unmarshal, if_neg legacy] at accepted
        simp only [transactionItem, ExactEncoding, numbersShortest, if_neg legacy]
        split at accepted
        · exact typed_written_iff reencodes_access_list_tx (fun _ => rfl) accepted
        · exact typed_written_iff reencodes_dynamic_fee_tx (fun _ => rfl) accepted
        · exact typed_written_iff reencodes_blob_tx (fun _ => rfl) accepted
        · exact typed_written_iff reencodes_set_code_tx (fun _ => rfl) accepted
        · cases accepted

theorem parse_transactions_each {inputs : List Bytes} {transactions : List Transaction}
    (accepted : parseTransactions inputs = .ok transactions) :
    List.Forall₂ (fun input tx => ∃ rest, Transaction.unmarshal input = .ok (tx, rest))
      inputs transactions := by
  have read := map_error_eq_ok.mp accepted
  clear accepted
  induction inputs generalizing transactions with
  | nil =>
      cases read
      exact .nil
  | cons input inputs inductionHypothesis =>
      rw [List.mapM_cons] at read
      obtain ⟨tx, head, tail⟩ := bind_eq_ok.mp read
      obtain ⟨others, later, same⟩ := bind_eq_ok.mp tail
      cases same
      cases unmarshals : Transaction.unmarshal input with
      | error error =>
          rw [unmarshals] at head
          cases head
      | ok result =>
          rw [unmarshals] at head
          cases head
          exact .cons ⟨result.2, unmarshals⟩ (inductionHypothesis later)

theorem marshal_all_iff {inputs : List Bytes} {transactions : List Transaction}
    (each : List.Forall₂ (fun input tx => ∃ rest, Transaction.unmarshal input = .ok (tx, rest))
      inputs transactions) :
    transactions.map Transaction.marshal = inputs ↔ ∀ input ∈ inputs, ExactEncoding input := by
  induction each with
  | nil => exact iff_of_true rfl (List.forall_mem_nil _)
  | cons head tail inductionHypothesis =>
      obtain ⟨rest, accepted⟩ := head
      rw [List.map_cons, List.cons.injEq, inductionHypothesis, (unmarshal_item accepted).2,
        List.forall_mem_cons]

/-- The transactions of a block are encoded as they were read exactly if all inputs are exact
encodings. Then the transactions root is that of the inputs, and no other exact encodings are
read as the same transactions. -/
theorem accepted_encodings_preserved_iff (libraries : HashLibraries) {inputs : List Bytes}
    {transactions : List Transaction} (accepted : parseTransactions inputs = .ok transactions) :
    (transactions.map Transaction.marshal = inputs ↔ ∀ input ∈ inputs, ExactEncoding input) ∧
    ((∀ input ∈ inputs, ExactEncoding input) →
      (∀ block : Block, (Block.toHeader libraries { block with transactions }).transactionsRoot =
        libraries.trieRoot (addLeaves (indexedLeaves inputs))) ∧
      ∀ others, parseTransactions others = .ok transactions →
        (∀ other ∈ others, ExactEncoding other) → others = inputs) := by
  have written := marshal_all_iff (parse_transactions_each accepted)
  refine ⟨written, ?_⟩
  intro exact
  have encoded := written.mpr exact
  constructor
  · intro block
    simp only [Block.toHeader, compute_root_hash_eq, encoded]
  · intro others acceptedOthers exactOthers
    rw [← encoded, (marshal_all_iff (parse_transactions_each acceptedOthers)).mpr exactOthers]

def emptyTransfer : Bytes := [0xC9, 0x80, 0x80, 0x80, 0x80, 0x80, 0x80, 0x80, 0x80, 0x80]

theorem empty_transfer_preserved :
    let libraries : HashLibraries := ⟨fun _ => default, fun bloom _ => bloom⟩
    let tx : Transaction := { toAddress := none }
    parseTransactions [emptyTransfer] = .ok [tx] ∧
      (Block.toHeader libraries { transactions := [tx] }).transactionsRoot =
        libraries.trieRoot (addLeaves (indexedLeaves [emptyTransfer])) := by
  intro libraries tx
  have accepted : parseTransactions [emptyTransfer] = .ok [tx] := by rfl
  have exact : ∀ input ∈ [emptyTransfer], ExactEncoding input := by decide
  exact ⟨accepted, ((accepted_encodings_preserved_iff libraries accepted).2 exact).1 {}⟩

/-- A gas price written as a zero byte, and a byte behind the transaction. -/
theorem other_encodings_accepted :
    let tx : Transaction := { toAddress := none }
    let leadingZero : Bytes := [0xC9, 0x80, 0x00, 0x80, 0x80, 0x80, 0x80, 0x80, 0x80, 0x80]
    let longer := emptyTransfer ++ [0xFF]
    parseTransactions [emptyTransfer] = .ok [tx] ∧
      parseTransactions [leadingZero] = .ok [tx] ∧ parseTransactions [longer] = .ok [tx] ∧
      Transaction.marshal tx ≠ leadingZero ∧ Transaction.marshal tx ≠ longer := by
  refine ⟨rfl, rfl, rfl, ?_, ?_⟩
  · decide
  · decide

section Wrapping

theorem transaction_item_length_le (input : Bytes) :
    (transactionItem input).length ≤ input.length := by
  unfold transactionItem
  split
  · exact le_rfl
  · split_ifs <;> simp

theorem transaction_item_append {payload : Bytes} (more : Bytes) (filled : payload ≠ []) :
    transactionItem (payload ++ more) = transactionItem payload ++ more := by
  cases payload with
  | nil => exact absurd rfl filled
  | cons code others =>
      simp only [List.cons_append, transactionItem]
      split_ifs <;> rfl

theorem transaction_item_of_list {header : Header} {input remaining : Bytes}
    (decodes : Header.decode input = .ok (header, remaining)) (list : header.list = true) :
    transactionItem input = input := by
  cases input with
  | nil => rfl
  | cons code others =>
      by_cases high : code > 0x7f
      · simp only [transactionItem, if_pos high]
      · have small : code < 0x80 := by
          rw [gt_iff_lt, UInt8.lt_iff_toNat_lt] at high
          rw [UInt8.lt_iff_toNat_lt]
          simp only [UInt8.reduceToNat] at high ⊢
          omega
        rw [(Headed.lone code others small).decode] at decodes
        cases decodes
        cases list

theorem behind_item_append {item : Bytes} (one : OneItem item) (more : Bytes) :
    behindItem (item ++ more) = some more := by
  rw [behindItem, one.item_length, Option.map_some, List.drop_left]

theorem payload_filled_iff {payload more item rest : Bytes} (one : OneItem item)
    (whole : transactionItem (payload ++ more) = item ++ rest) :
    more = rest ↔ OneItem (transactionItem payload) := by
  by_cases empty : payload = []
  · rw [empty, List.nil_append] at whole
    rw [empty]
    apply iff_of_false
    · intro same
      have lengths := transaction_item_length_le more
      have positive := List.length_pos_iff.mpr one.ne_nil
      rw [whole, List.length_append, same] at lengths
      omega
    · intro filled
      exact filled.ne_nil rfl
  · rw [transaction_item_append more empty] at whole
    constructor
    · intro same
      rw [same] at whole
      rwa [List.append_cancel_right whole]
    · intro filled
      exact (filled.unique one whole).2

theorem consumes_iff {input rest : Bytes} {tx : Transaction}
    (accepted : decodeRlpTransaction input = .ok (tx, rest)) :
    behindItem input = some rest ↔ wrapsOneItem input = true := by
  unfold decodeRlpTransaction at accepted
  split at accepted
  · cases accepted
  rename_i header remaining decodes
  have tested : wrapsOneItem input =
      (header.list || decide (OneItem (transactionItem (remaining.take header.payloadLength)))) := by
    rw [wrapsOneItem, decodes]
  rw [tested]
  split_ifs at accepted with list
  · obtain ⟨⟨item, whole, one⟩, -⟩ := unmarshal_item accepted
    rw [transaction_item_of_list decodes list] at whole
    rw [whole, behind_item_append one, list]
    exact iff_of_true rfl rfl
  · obtain ⟨⟨item, whole, one⟩, -⟩ := unmarshal_item accepted
    have string : header.list = false := eq_false_of_ne_true list
    rw [string, Bool.false_or, decide_eq_true_iff]
    cases headed_of_decode decodes with
    | lone byte more small =>
        -- The byte is skipped as a header, although it is the whole first item.
        have behind := behind_item_append (.lone byte small) more
        have low : transactionItem [byte] = transactionItem [] := by
          have notHigh : ¬ byte > 0x7f := by
            rw [gt_iff_lt, UInt8.lt_iff_toNat_lt]
            rw [UInt8.lt_iff_toNat_lt] at small
            simp only [UInt8.reduceToNat] at small ⊢
            omega
          exact if_neg notHigh
        rw [List.singleton_append] at behind
        rw [behind, Option.some.injEq, List.take_succ_cons, List.take_zero, low]
        exact payload_filled_iff one whole
    | written isList payload more bounded notLone =>
        have behind := behind_item_append (.written isList payload bounded notLone) more
        rw [List.append_assoc] at behind
        rw [headerLength, List.drop_left] at whole
        rw [behind, Option.some.injEq, List.take_left]
        exact payload_filled_iff one whole

theorem wraps_one_item_append {item : Bytes} (one : OneItem item) (more : Bytes) :
    wrapsOneItem (item ++ more) = wrapsOneItem item := by
  unfold wrapsOneItem
  cases one with
  | lone byte small =>
      rw [List.singleton_append, (Headed.lone byte more small).decode,
        (Headed.lone byte [] small).decode]
      rfl
  | written list payload bounded notLone =>
      have alone := (Headed.written list payload [] bounded notLone).decode
      rw [List.append_nil] at alone
      rw [List.append_assoc, (Headed.written list payload more bounded notLone).decode, alone]
      simp only [List.take_left, List.take_length]

theorem decode_rlp_transaction_item {input rest : Bytes} {tx : Transaction}
    (accepted : decodeRlpTransaction input = .ok (tx, rest)) :
    ∃ item behind, input = item ++ behind ∧ OneItem item := by
  unfold decodeRlpTransaction at accepted
  split at accepted
  · cases accepted
  · rename_i header remaining decodes
    obtain ⟨item, whole, one⟩ := (headed_of_decode decodes).item
    exact ⟨item, _, whole, one⟩

theorem decode_items_consume_iff {rounds : Nat} {payload : Bytes}
    {transactions : List Transaction}
    (decodes : decodeItems decodeRlpTransaction rounds payload = .ok transactions) :
    List.Forall₂ (fun item tx => ∃ more, decodeRlpTransaction (item ++ more) = .ok (tx, more))
        (splitItems rounds payload) transactions ↔
      ∀ item ∈ splitItems rounds payload, wrapsOneItem item = true := by
  induction rounds generalizing payload transactions with
  | zero =>
      cases payload with
      | nil =>
          cases decodes
          exact iff_of_true .nil (List.forall_mem_nil _)
      | cons byte rest => cases decodes
  | succ rounds inductionHypothesis =>
      cases payload with
      | nil =>
          cases decodes
          exact iff_of_true .nil (List.forall_mem_nil _)
      | cons byte others =>
          obtain ⟨⟨tx, rest⟩, head, tail⟩ := bind_eq_ok.mp decodes
          obtain ⟨later, loop, same⟩ := bind_eq_ok.mp tail
          cases same
          have consumes := consumes_iff head
          obtain ⟨item, behind, whole, one⟩ := decode_rlp_transaction_item head
          rw [whole, behind_item_append one, Option.some.injEq, wraps_one_item_append one]
            at consumes
          rw [whole, split_items_append one, List.forall_mem_cons]
          constructor
          · intro parts
            cases parts with
            | cons first following =>
                obtain ⟨more, own⟩ := first
                have wraps := (consumes_iff own).mp (behind_item_append one more)
                rw [wraps_one_item_append one] at wraps
                rw [← consumes.mpr wraps] at loop
                exact ⟨wraps, (inductionHypothesis loop).mp following⟩
          · rintro ⟨wraps, following⟩
            have stopped := consumes.mpr wraps
            rw [whole, ← stopped] at head
            rw [← stopped] at loop
            exact .cons ⟨behind, head⟩ ((inductionHypothesis loop).mpr following)

/-- A transaction takes exactly the first item off the input if that item is a list, or a string
that a type byte and one item fill, and otherwise splits it or runs into the next one. The
transactions of a list are then read from its items, one each. -/
theorem consumes_one_item_iff (input : Bytes) :
    (∀ tx rest, decodeRlpTransaction input = .ok (tx, rest) →
      (behindItem input = some rest ↔ wrapsOneItem input = true)) ∧
    ∀ transactions rest, decodeVec decodeRlpTransaction input = .ok (transactions, rest) →
      (List.Forall₂ (fun item tx => ∃ more, decodeRlpTransaction (item ++ more) = .ok (tx, more))
          (listItems input) transactions ↔
        ∀ item ∈ listItems input, wrapsOneItem item = true) := by
  constructor
  · intro tx rest accepted
    exact consumes_iff accepted
  · intro transactions rest decodes
    obtain ⟨payload, remaining, list, reads⟩ := decoder_bind_ok decodes
    obtain ⟨read, loop, same⟩ := bind_eq_ok.mp reads
    cases same
    obtain ⟨header, behind, headed, isList, own, -⟩ := decode_bytes_ok list
    have items : listItems input = splitItems payload.length payload := by
      rw [listItems, headed.decode, own]
      cases headed with
      | lone byte more small => cases isList
      | written kind payload more bounded notLone => simp only [List.take_left]
    rw [items]
    exact decode_items_consume_iff loop

def wrappedTransfer : Bytes :=
  [0x8E, 0x02, 0xCC, 0x80, 0x80, 0x80, 0x80, 0x80, 0x80, 0x80, 0x80, 0xC0, 0x80, 0x80, 0x80]

theorem transfers_consumed :
    let legacy : Transaction := { toAddress := none }
    let dynamicFee : Transaction := { transactionType := .dynamicFee, toAddress := none }
    let input := encodeList [emptyTransfer, wrappedTransfer]
    decodeRlpTransaction wrappedTransfer = .ok (dynamicFee, []) ∧
      behindItem wrappedTransfer = some [] ∧
      decodeVec decodeRlpTransaction input = .ok ([legacy, dynamicFee], []) ∧
      List.Forall₂ (fun item tx => ∃ more, decodeRlpTransaction (item ++ more) = .ok (tx, more))
        (listItems input) [legacy, dynamicFee] := by
  intro legacy dynamicFee input
  have one : decodeRlpTransaction wrappedTransfer = .ok (dynamicFee, []) := by rfl
  have all : decodeVec decodeRlpTransaction input = .ok ([legacy, dynamicFee], []) := by rfl
  have wraps : ∀ item ∈ listItems input, wrapsOneItem item = true := by decide
  refine ⟨one, ?_, all, ?_⟩
  · exact ((consumes_one_item_iff wrappedTransfer).1 _ _ one).mpr (by decide)
  · exact ((consumes_one_item_iff input).2 _ _ all).mpr wraps

/-- A lone byte in front, a string of two bytes around a longer transaction, and a string that
announces a byte behind the transaction. -/
theorem wrapped_lengths_differ :
    let tx : Transaction := { toAddress := none }
    let lone : Bytes := 0x05 :: emptyTransfer
    let shorter : Bytes := 0x81 :: emptyTransfer
    let longer : Bytes := 0x8B :: (emptyTransfer ++ [0xFF])
    decodeRlpTransaction lone = .ok (tx, []) ∧ behindItem lone = some emptyTransfer ∧
      decodeRlpTransaction shorter = .ok (tx, []) ∧
      behindItem shorter = some (emptyTransfer.drop 1) ∧
      decodeRlpTransaction longer = .ok (tx, [0xFF]) ∧ behindItem longer = some [] := by
  refine ⟨rfl, ?_, rfl, ?_, rfl, ?_⟩
  · decide
  · decide
  · decide

end Wrapping

end Bertha.TransactionItems
