import Bertha.ChainAdapter

/-!
# Failed bundles

`go/replay/failed_bundles.go` and the insertion of the bundles of a block into its
transactions in `go/replay/state.go`. The decoder compares every entry with the one before
it; the insertion relies on that order when it slices the transactions between two
positions. JSON decoding and the binary form of a transaction are parameters.
-/

namespace Bertha.BundleInsertion

open Bertha.BigEndian Bertha.ChainAdapter Bertha.Conversion

set_option autoImplicit false

variable {Tx : Type}

structure FailedBundle (Tx : Type) where
  pos : UInt64
  tx : Tx
deriving DecidableEq, Repr

/-- A block number that is not in the map has the nil slice. -/
abbrev FailedBundles (Tx : Type) := UInt64 → List (FailedBundle Tx)

structure FailedBundleEntry where
  block : Option UInt64
  pos : Option UInt64
  tx : Bytes

structure BundleLibraries (Tx : Type) where
  /-- `json.Unmarshal` into the entries. -/
  unmarshalEntries : Bytes → Except String (List FailedBundleEntry)
  /-- `types.Transaction.UnmarshalBinary`. -/
  unmarshalBinary : Bytes → Except String Tx

def FailedBundles.append (failedBundles : FailedBundles Tx) (block : UInt64)
    (bundle : FailedBundle Tx) : FailedBundles Tx :=
  fun number => if number = block then failedBundles number ++ [bundle] else failedBundles number

/-- The order test of the decoder against the previous entry. -/
def checkSorted (index : Nat) (previous : Option (UInt64 × UInt64)) (block pos : UInt64) :
    Except String Unit :=
  match previous with
  | none => .ok ()
  | some (prevBlock, prevPos) =>
    if prevBlock > block ∨ prevBlock = block ∧ prevPos > pos then
      .error (s!"failed bundle {index} at block {block.toNat}, position {pos.toNat} " ++
        "is not sorted by block and position")
    else .ok ()

def unmarshalEntry (libraries : BundleLibraries Tx) (index : Nat)
    (previous : Option (UInt64 × UInt64)) (entry : FailedBundleEntry) :
    Except String (UInt64 × FailedBundle Tx) :=
  match entry.block, entry.pos with
  | none, _ => .error s!"failed bundle {index} has no block"
  | some _, none => .error s!"failed bundle {index} has no position"
  | some block, some pos => do
    let tx ← (libraries.unmarshalBinary entry.tx).mapError fun message =>
      s!"invalid transaction of failed bundle {index} at block {block.toNat}, " ++
        s!"position {pos.toNat}: {message}"
    checkSorted index previous block pos
    return (block, ⟨pos, tx⟩)

def unmarshalLoop (libraries : BundleLibraries Tx) :
    Nat → Option (UInt64 × UInt64) → FailedBundles Tx → List FailedBundleEntry →
      Except String (FailedBundles Tx)
  | _, _, failedBundles, [] => .ok failedBundles
  | index, previous, failedBundles, entry :: entries => do
    let (block, bundle) ← unmarshalEntry libraries index previous entry
    unmarshalLoop libraries (index + 1) (some (block, bundle.pos))
      (failedBundles.append block bundle) entries

def FailedBundles.unmarshalJSON (libraries : BundleLibraries Tx) (data : Bytes) :
    Except String (FailedBundles Tx) := do
  let entries ← libraries.unmarshalEntries data
  unmarshalLoop libraries 0 none (fun _ => []) entries

def slice (txs : List Tx) (first last : Nat) : Except Failure (List Tx) :=
  if first ≤ last ∧ last ≤ txs.length then .ok ((txs.take last).drop first)
  else .error (.panic "slice bounds out of range")

def insertLoop (txs : List Tx) : UInt64 → List Tx → List (FailedBundle Tx) →
    Except Failure (List Tx)
  | next, res, [] => do
    let remaining ← slice txs next.toNat txs.length
    return res ++ remaining
  | next, res, failedBundle :: failedBundles =>
    if failedBundle.pos.toNat > txs.length then
      .error (.error (s!"position {failedBundle.pos.toNat} of failed bundle exceeds the " ++
        s!"number of transactions {txs.length}"))
    else do
      let before ← slice txs next.toNat failedBundle.pos.toNat
      insertLoop txs failedBundle.pos (res ++ before ++ [failedBundle.tx]) failedBundles

def insertFailedBundles (txs : List Tx) (failedBundles : List (FailedBundle Tx)) :
    Except Failure (List Tx) :=
  insertLoop txs 0 [] failedBundles

def Decodes (libraries : BundleLibraries Tx) (entry : FailedBundleEntry)
    (decoded : UInt64 × FailedBundle Tx) : Prop :=
  entry.block = some decoded.1 ∧ entry.pos = some decoded.2.pos ∧
    libraries.unmarshalBinary entry.tx = .ok decoded.2.tx

/-- The block and the position that an entry is sorted by. -/
def sortKey (decoded : UInt64 × FailedBundle Tx) : UInt64 × UInt64 := (decoded.1, decoded.2.pos)

def Sorted (earlier later : UInt64 × UInt64) : Prop :=
  earlier.1 < later.1 ∨ earlier.1 = later.1 ∧ earlier.2 ≤ later.2

instance : IsTrans (UInt64 × UInt64) Sorted where
  trans first second third before after := by
    unfold Sorted at *
    simp only [UInt64.lt_iff_toNat_lt, UInt64.le_iff_toNat_le, ← UInt64.toNat_inj] at *
    omega

def bundlesAt (blockNumber : UInt64) (decoded : List (UInt64 × FailedBundle Tx)) :
    List (FailedBundle Tx) :=
  (decoded.filter fun entry => entry.1 = blockNumber).map Prod.snd

/-- `result` is `txs` with the bundles inserted in order, each behind as many transactions
of `txs` as its position says. An element of `marked` tells which of the two it is. -/
def Inserted (txs : List Tx) (bundles : List (FailedBundle Tx)) (result : List Tx) : Prop :=
  ∃ marked : List (Tx ⊕ FailedBundle Tx),
    marked.map (Sum.elim id FailedBundle.tx) = result ∧
    marked.filterMap Sum.getLeft? = txs ∧
    marked.filterMap Sum.getRight? = bundles ∧
    ∀ before bundle after, marked = before ++ .inr bundle :: after →
      (before.filterMap Sum.getLeft?).length = bundle.pos.toNat

theorem check_sorted_ok {index : Nat} {previous : Option (UInt64 × UInt64)} {block pos : UInt64}
    (checked : checkSorted index previous block pos = .ok ()) :
    ∀ earlier ∈ previous, Sorted earlier (block, pos) := by
  intro earlier present
  obtain ⟨prevBlock, prevPos⟩ := earlier
  cases present
  simp only [checkSorted] at checked
  split at checked
  · cases checked
  · rename_i ordered
    simp only [Sorted, gt_iff_lt, UInt64.lt_iff_toNat_lt, UInt64.le_iff_toNat_le,
      ← UInt64.toNat_inj] at ordered ⊢
    omega

theorem unmarshal_entry_ok {libraries : BundleLibraries Tx} {index : Nat}
    {previous : Option (UInt64 × UInt64)} {entry : FailedBundleEntry}
    {decoded : UInt64 × FailedBundle Tx}
    (accepted : unmarshalEntry libraries index previous entry = .ok decoded) :
    Decodes libraries entry decoded ∧ ∀ earlier ∈ previous, Sorted earlier (sortKey decoded) := by
  unfold unmarshalEntry at accepted
  split at accepted
  · cases accepted
  · cases accepted
  · rename_i block pos hasBlock hasPos
    obtain ⟨tx, binary, accepted⟩ := bind_eq_ok.mp accepted
    obtain ⟨_, checked, same⟩ := bind_eq_ok.mp accepted
    cases same
    have parsed : libraries.unmarshalBinary entry.tx = .ok tx := by
      cases read : libraries.unmarshalBinary entry.tx with
      | error message =>
          rw [read] at binary
          cases binary
      | ok value =>
          rw [read] at binary
          cases binary
          rfl
    exact ⟨⟨hasBlock, hasPos, parsed⟩, check_sorted_ok checked⟩

theorem bundles_at_cons (number : UInt64) (entry : UInt64 × FailedBundle Tx)
    (decoded : List (UInt64 × FailedBundle Tx)) (failedBundles : FailedBundles Tx) :
    failedBundles number ++ bundlesAt number (entry :: decoded) =
      failedBundles.append entry.1 entry.2 number ++ bundlesAt number decoded := by
  unfold bundlesAt FailedBundles.append
  by_cases own : number = entry.1
  · simp [own]
  · have other : ¬ entry.1 = number := fun same => own same.symm
    simp [own, other]

/-- The decoder accepts sorted entries only and appends each to the list of its block. -/
theorem unmarshal_loop_ok {libraries : BundleLibraries Tx} {index : Nat}
    {previous : Option (UInt64 × UInt64)} {failedBundles result : FailedBundles Tx}
    {entries : List FailedBundleEntry}
    (accepted : unmarshalLoop libraries index previous failedBundles entries = .ok result) :
    ∃ decoded, List.Forall₂ (Decodes libraries) entries decoded ∧
      (previous.toList ++ decoded.map sortKey).IsChain Sorted ∧
      ∀ number, result number = failedBundles number ++ bundlesAt number decoded := by
  induction entries generalizing index previous failedBundles with
  | nil =>
      cases accepted
      refine ⟨[], .nil, ?_, fun number => (List.append_nil _).symm⟩
      cases previous with
      | none => exact .nil
      | some earlier => exact .singleton earlier
  | cons entry entries inductionHypothesis =>
      obtain ⟨first, head, tail⟩ := bind_eq_ok.mp accepted
      obtain ⟨decodes, ordered⟩ := unmarshal_entry_ok head
      obtain ⟨decoded, following, chain, collected⟩ := inductionHypothesis tail
      refine ⟨first :: decoded, .cons decodes following, ?_, ?_⟩
      · rw [List.map_cons]
        cases previous with
        | none => exact chain
        | some earlier => exact .cons_cons (ordered earlier rfl) chain
      · intro number
        rw [collected, bundles_at_cons]

theorem bundles_at_sorted {decoded : List (UInt64 × FailedBundle Tx)}
    (chain : (decoded.map sortKey).IsChain Sorted) (number : UInt64) :
    (bundlesAt number decoded).Pairwise fun earlier later => earlier.pos ≤ later.pos := by
  have pairwise := List.pairwise_map.mp (List.isChain_iff_pairwise.mp chain)
  apply List.pairwise_map.mpr
  apply (pairwise.filter _).imp_of_mem
  intro earlier later earlierMember laterMember ordered
  have own : earlier.1 = number := by simpa using (List.mem_filter.mp earlierMember).2
  have same : later.1 = number := by simpa using (List.mem_filter.mp laterMember).2
  rcases ordered with below | ⟨-, positions⟩
  · rw [sortKey, sortKey, own, same] at below
    exact absurd below (UInt64.lt_irrefl number)
  · exact positions

theorem slice_ok {txs : List Tx} {first last : Nat} (ordered : first ≤ last)
    (inside : last ≤ txs.length) : slice txs first last = .ok ((txs.take last).drop first) :=
  if_pos ⟨ordered, inside⟩

/-- Every bundle in the list stands behind as many transactions as its position says, when
`count` of them come before the list. -/
def Positioned : Nat → List (Tx ⊕ FailedBundle Tx) → Prop
  | _, [] => True
  | count, .inl _ :: marked => Positioned (count + 1) marked
  | count, .inr bundle :: marked => count = bundle.pos.toNat ∧ Positioned count marked

theorem positioned_txs (count : Nat) (txs : List Tx) (marked : List (Tx ⊕ FailedBundle Tx)) :
    Positioned count (txs.map .inl ++ marked) ↔ Positioned (count + txs.length) marked := by
  induction txs generalizing count with
  | nil => rfl
  | cons tx txs inductionHypothesis =>
      rw [List.length_cons, ← Nat.add_assoc, Nat.add_right_comm, ← inductionHypothesis]
      rfl

theorem Positioned.count {count : Nat} {before after : List (Tx ⊕ FailedBundle Tx)}
    {bundle : FailedBundle Tx} (positioned : Positioned count (before ++ .inr bundle :: after)) :
    count + (before.filterMap Sum.getLeft?).length = bundle.pos.toNat := by
  induction before generalizing count with
  | nil => exact positioned.1
  | cons mark before inductionHypothesis =>
      cases mark with
      | inl tx =>
          rw [← inductionHypothesis positioned, List.filterMap_cons, Sum.getLeft?,
            List.length_cons]
          omega
      | inr earlier => exact inductionHypothesis positioned.2

def marks (txs : List Tx) : UInt64 → List (FailedBundle Tx) → List (Tx ⊕ FailedBundle Tx)
  | next, [] => ((txs.take txs.length).drop next.toNat).map .inl
  | next, failedBundle :: failedBundles =>
    ((txs.take failedBundle.pos.toNat).drop next.toNat).map .inl ++
      .inr failedBundle :: marks txs failedBundle.pos failedBundles

def InRange (txs : List Tx) (next : UInt64) (bundles : List (FailedBundle Tx)) : Prop :=
  (next :: bundles.map FailedBundle.pos).Pairwise (· ≤ ·) ∧ next.toNat ≤ txs.length ∧
    ∀ bundle ∈ bundles, bundle.pos.toNat ≤ txs.length

theorem InRange.tail {txs : List Tx} {next : UInt64} {bundle : FailedBundle Tx}
    {bundles : List (FailedBundle Tx)} (inRange : InRange txs next (bundle :: bundles)) :
    next.toNat ≤ bundle.pos.toNat ∧ bundle.pos.toNat ≤ txs.length ∧
      InRange txs bundle.pos bundles := by
  obtain ⟨ordered, -, bounded⟩ := inRange
  rw [List.map_cons, List.pairwise_cons] at ordered
  have first := UInt64.le_iff_toNat_le.mp (ordered.1 bundle.pos List.mem_cons_self)
  have own := bounded bundle List.mem_cons_self
  exact ⟨first, own, ordered.2, own, fun later member =>
    bounded later (List.mem_cons_of_mem bundle member)⟩

private theorem lefts_of_txs (txs : List Tx) :
    (txs.map (@Sum.inl Tx (FailedBundle Tx))).filterMap Sum.getLeft? = txs := by
  simp [List.filterMap_map, Function.comp_def]

private theorem rights_of_txs (txs : List Tx) :
    (txs.map (@Sum.inl Tx (FailedBundle Tx))).filterMap Sum.getRight? = [] := by
  simp [List.filterMap_map, Function.comp_def]

theorem insert_loop_eq {txs : List Tx} {next : UInt64} {bundles : List (FailedBundle Tx)}
    (res : List Tx) (inRange : InRange txs next bundles) :
    insertLoop txs next res bundles =
      .ok (res ++ (marks txs next bundles).map (Sum.elim id FailedBundle.tx)) := by
  induction bundles generalizing next res with
  | nil =>
      rw [insertLoop, slice_ok inRange.2.1 le_rfl, marks, List.map_map, Sum.elim_comp_inl,
        List.map_id]
      rfl
  | cons bundle bundles inductionHypothesis =>
      obtain ⟨ordered, bounded, following⟩ := inRange.tail
      rw [insertLoop, if_neg (by omega), slice_ok ordered bounded]
      change insertLoop txs bundle.pos _ bundles = _
      rw [inductionHypothesis _ following, marks, List.map_append, List.map_map,
        Sum.elim_comp_inl, List.map_id, List.map_cons]
      simp only [List.append_assoc, List.singleton_append, Sum.elim_inr]

theorem marks_txs {txs : List Tx} {next : UInt64} {bundles : List (FailedBundle Tx)}
    (inRange : InRange txs next bundles) :
    (marks txs next bundles).filterMap Sum.getLeft? = txs.drop next.toNat := by
  induction bundles generalizing next with
  | nil => rw [marks, lefts_of_txs, List.take_length]
  | cons bundle bundles inductionHypothesis =>
      obtain ⟨ordered, bounded, following⟩ := inRange.tail
      have whole : (txs.take bundle.pos.toNat).drop next.toNat ++ txs.drop bundle.pos.toNat =
          txs.drop next.toNat := by
        rw [← List.drop_append_of_le_length (by rw [List.length_take]; omega),
          List.take_append_drop]
      rw [marks, List.filterMap_append, lefts_of_txs, List.filterMap_cons, Sum.getLeft?]
      dsimp only
      rw [inductionHypothesis following, whole]

theorem marks_bundles (txs : List Tx) (next : UInt64) (bundles : List (FailedBundle Tx)) :
    (marks txs next bundles).filterMap Sum.getRight? = bundles := by
  induction bundles generalizing next with
  | nil => rw [marks, rights_of_txs]
  | cons bundle bundles inductionHypothesis =>
      rw [marks, List.filterMap_append, rights_of_txs, List.filterMap_cons, Sum.getRight?]
      dsimp only
      rw [inductionHypothesis, List.nil_append]

theorem marks_positioned {txs : List Tx} {next : UInt64} {bundles : List (FailedBundle Tx)}
    (inRange : InRange txs next bundles) : Positioned next.toNat (marks txs next bundles) := by
  induction bundles generalizing next with
  | nil =>
      rw [marks, ← List.append_nil (List.map _ _), positioned_txs]
      trivial
  | cons bundle bundles inductionHypothesis =>
      obtain ⟨ordered, bounded, following⟩ := inRange.tail
      have count : next.toNat + ((txs.take bundle.pos.toNat).drop next.toNat).length =
          bundle.pos.toNat := by
        rw [List.length_drop, List.length_take]
        omega
      rw [marks, positioned_txs, count]
      exact ⟨rfl, inductionHypothesis following⟩

theorem insert_failed_bundles_ok {txs : List Tx} {bundles : List (FailedBundle Tx)}
    (inRange : InRange txs 0 bundles) :
    ∃ result, insertFailedBundles txs bundles = .ok result ∧ Inserted txs bundles result := by
  refine ⟨_, insert_loop_eq [] inRange, marks txs 0 bundles, rfl, marks_txs inRange,
    marks_bundles txs 0 bundles, ?_⟩
  intro before bundle after split
  have positioned := marks_positioned inRange
  rw [split] at positioned
  have count := positioned.count
  rwa [UInt64.toNat_zero, Nat.zero_add] at count

/-- With sorted positions the loop reaches a position behind the end before any slice fails. -/
theorem insert_loop_error {txs : List Tx} {next : UInt64} {bundles : List (FailedBundle Tx)}
    (res : List Tx) (ordered : (next :: bundles.map FailedBundle.pos).Pairwise (· ≤ ·))
    (beyond : ∃ bundle ∈ bundles, txs.length < bundle.pos.toNat) :
    ∃ message, insertLoop txs next res bundles = .error (.error message) := by
  induction bundles generalizing next res with
  | nil => simp at beyond
  | cons bundle bundles inductionHypothesis =>
      rw [List.map_cons, List.pairwise_cons] at ordered
      have first := UInt64.le_iff_toNat_le.mp (ordered.1 bundle.pos List.mem_cons_self)
      by_cases own : txs.length < bundle.pos.toNat
      · exact ⟨_, by rw [insertLoop, if_pos own]⟩
      · have later : ∃ other ∈ bundles, txs.length < other.pos.toNat := by
          simpa [own] using beyond
        rw [insertLoop, if_neg own, slice_ok first (by omega)]
        exact inductionHypothesis _ ordered.2 later

theorem Inserted.length {txs result : List Tx} {bundles : List (FailedBundle Tx)}
    (inserted : Inserted txs bundles result) : result.length = txs.length + bundles.length := by
  obtain ⟨marked, same, left, right, -⟩ := inserted
  rw [← same, ← left, ← right, List.length_map]
  clear same left right
  induction marked with
  | nil => rfl
  | cons mark marked inductionHypothesis =>
      cases mark with
      | inl tx =>
          simp only [List.filterMap_cons, Sum.getLeft?, Sum.getRight?, List.length_cons,
            inductionHypothesis]
          omega
      | inr bundle =>
          simp only [List.filterMap_cons, Sum.getLeft?, Sum.getRight?, List.length_cons,
            inductionHypothesis]
          omega

/-- The bundles of every block are inserted at their positions, after any accepted file: the
insertion never panics, and fails exactly for a position behind the last transaction. -/
theorem failed_bundles_inserted (libraries : BundleLibraries Tx) (data : Bytes)
    (failedBundles : FailedBundles Tx)
    (accepted : FailedBundles.unmarshalJSON libraries data = .ok failedBundles)
    (blockNumber : UInt64) (txs : List Tx) :
    let bundles := failedBundles blockNumber
    (∃ entries decoded, libraries.unmarshalEntries data = .ok entries ∧
      List.Forall₂ (Decodes libraries) entries decoded ∧ bundles = bundlesAt blockNumber decoded) ∧
    (∀ message, insertFailedBundles txs bundles ≠ .error (.panic message)) ∧
    ((∃ message, insertFailedBundles txs bundles = .error (.error message)) ↔
      ∃ bundle ∈ bundles, txs.length < bundle.pos.toNat) ∧
    ∀ result, insertFailedBundles txs bundles = .ok result →
      result.length = txs.length + bundles.length ∧ Inserted txs bundles result := by
  intro bundles
  obtain ⟨entries, parsed, accepted⟩ := bind_eq_ok.mp accepted
  obtain ⟨decoded, decodes, chain, collected⟩ := unmarshal_loop_ok accepted
  have own : bundles = bundlesAt blockNumber decoded := collected blockNumber
  have sorted : (0 :: bundles.map FailedBundle.pos).Pairwise (· ≤ ·) := by
    refine List.pairwise_cons.mpr ⟨fun pos _ => UInt64.zero_le, ?_⟩
    rw [own]
    exact List.pairwise_map.mpr (bundles_at_sorted chain blockNumber)
  refine ⟨⟨entries, decoded, parsed, decodes, own⟩, ?_⟩
  by_cases beyond : ∃ bundle ∈ bundles, txs.length < bundle.pos.toNat
  · obtain ⟨message, fails⟩ := insert_loop_error [] sorted beyond
    have fails : insertFailedBundles txs bundles = .error (.error message) := fails
    rw [fails]
    refine ⟨nofun, iff_of_true ⟨message, rfl⟩ beyond, nofun⟩
  · have bounded : ∀ bundle ∈ bundles, bundle.pos.toNat ≤ txs.length := by
      simpa using beyond
    obtain ⟨result, succeeds, inserted⟩ :=
      insert_failed_bundles_ok ⟨sorted, Nat.zero_le _, bounded⟩
    rw [succeeds]
    refine ⟨nofun, iff_of_false nofun beyond, ?_⟩
    intro other same
    cases same
    exact ⟨inserted.length, inserted⟩

theorem failed_bundles_inserted_sample :
    let entries : List FailedBundleEntry :=
      [⟨some 7, some 0, [1]⟩, ⟨some 7, some 2, [2]⟩, ⟨some 7, some 2, [3]⟩, ⟨some 8, some 0, [4]⟩]
    let libraries : BundleLibraries Bytes := ⟨fun _ => .ok entries, .ok⟩
    ∃ failedBundles, FailedBundles.unmarshalJSON libraries [] = .ok failedBundles ∧
      insertFailedBundles [[10], [11]] (failedBundles 7) = .ok [[1], [10], [11], [2], [3]] ∧
      Inserted [[10], [11]] (failedBundles 7) [[1], [10], [11], [2], [3]] := by
  intro entries libraries
  have accepted : FailedBundles.unmarshalJSON libraries [] = .ok _ := rfl
  have inserted := failed_bundles_inserted libraries [] _ accepted 7 [[10], [11]]
  exact ⟨_, rfl, rfl, (inserted.2.2.2 _ rfl).2⟩

end Bertha.BundleInsertion
