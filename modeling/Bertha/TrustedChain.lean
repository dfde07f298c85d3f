import Bertha.HashChain
import Bertha.TransactionRlp
import Bertha.VerifyCount

/-!
# What a verified chain is worth

`verify` is run with the number and the hash of a trusted block and over the whole chain. When
two databases pass both, their blocks below the trusted one are the same as far as the hashes
reach: the header up to the optional zeros that its encoding drops, and the marshalled
transactions and receipts. Otherwise they hold two blocks of one number whose headers, or
transactions, or receipts differ and have the same hash or root. A block with failed bundles
ends the argument, since its hash is not compared.
-/

namespace Bertha.TrustedChain

open Bertha.BigEndian Bertha.BlockDb Bertha.BlockDbInvariant Bertha.BlockIteration
open Bertha.Conversion Bertha.HashChain Bertha.HeaderRlp Bertha.Headers Bertha.TransactionRlp
open Bertha.Verifiers Bertha.VerifyCount
open Bertha.BlockTypes (Block Error Hash Transaction)

set_option autoImplicit false

/-- A database whose chain passes the verification of all blocks. -/
structure Walked (rust : RustLibraries) (db : KvDb) (chainId : UInt64) (failed : List UInt64) :
    Prop where
  sound : Sound db
  bundles : readFailedBundles rust db chainId = .ok failed
  walked : ∃ report, verify rust db chainId none none never = .ok report ∧ report.errors = 0

/-- It also passes the verification that starts at a trusted block. -/
structure Verified (rust : RustLibraries) (db : KvDb) (chainId trusted : UInt64)
    (trustedHash : Hash) (failed : List UInt64) : Prop extends Walked rust db chainId failed where
  requested : ∃ report,
    verify rust db chainId (some trusted) (some trustedHash) never = .ok report ∧
      report.errors = 0

/-- The blocks from one number to another are stored and have no failed bundles. -/
def Complete (db : KvDb) (chainId : UInt64) (failed : List UInt64) (first last : UInt64) : Prop :=
  ∀ number, first ≤ number → number ≤ last →
    (getBytes db chainId number).isSome ∧ number ∉ failed

/-- What the hashes fix of a block. -/
structure SameContents (rust : RustLibraries) (left right : Block) : Prop where
  header : withoutOptionalZeros (Block.toHeader rust.hashing left) =
    withoutOptionalZeros (Block.toHeader rust.hashing right)
  transactions : left.transactions.map Transaction.marshal =
    right.transactions.map Transaction.marshal
  receipts : left.receipts.map (TransactionReceipt.marshal rust.hashing) =
    right.receipts.map (TransactionReceipt.marshal rust.hashing)

/-- `compute_root_hash` on marshalled items. -/
def orderedRoot (rust : RustLibraries) (values : List Bytes) : Hash :=
  rust.hashing.trieRoot (addLeaves (indexedLeaves values))

/-- Two blocks that differ where one hash should tell them apart. -/
inductive Collision (rust : RustLibraries) (left right : Block) : Prop where
  | header
      (different : (Block.toHeader rust.hashing left).encode ≠
        (Block.toHeader rust.hashing right).encode)
      (same : rust.blockHash left = rust.blockHash right)
  | transactions
      (different : left.transactions.map Transaction.marshal ≠
        right.transactions.map Transaction.marshal)
      (same : orderedRoot rust (left.transactions.map Transaction.marshal) =
        orderedRoot rust (right.transactions.map Transaction.marshal))
  | receipts
      (different : left.receipts.map (TransactionReceipt.marshal rust.hashing) ≠
        right.receipts.map (TransactionReceipt.marshal rust.hashing))
      (same : orderedRoot rust (left.receipts.map (TransactionReceipt.marshal rust.hashing)) =
        orderedRoot rust (right.receipts.map (TransactionReceipt.marshal rust.hashing)))

def StoredAt (rust : RustLibraries) (left right : KvDb) (chainId number : UInt64)
    (first second : Block) : Prop :=
  get rust.codec left chainId number = .ok (some first) ∧
    get rust.codec right chainId number = .ok (some second)

section Walk

variable {rust : RustLibraries} {db : KvDb} {chainId : UInt64}

theorem verify_loop_reads {failed : List UInt64}
    {entries : List (Except Error (UInt64 × Block))} {poll : Nat} {state final : LoopState}
    (looped : verifyLoop rust chainId failed never poll entries state = .ok final) :
    ∀ entry ∈ entries, ∃ item, entry = .ok item := by
  induction entries generalizing poll state with
  | nil => simp
  | cons entry entries ih =>
      cases entry with
      | error failure =>
          rw [verifyLoop, never, if_neg Bool.false_ne_true] at looped
          cases looped
      | ok item =>
          rw [verifyLoop, never, if_neg Bool.false_ne_true] at looped
          intro other member
          rcases List.mem_cons.mp member with rfl | later
          · exact ⟨item, rfl⟩
          · exact ih looped other later

theorem verify_walk {report : Report} {failed : List UInt64}
    (bundles : readFailedBundles rust db chainId = .ok failed)
    (verified : verify rust db chainId none none never = .ok report) :
    ∃ state, verifyLoop rust chainId failed never 0 (iterate rust.codec db chainId 0 .forward)
        ⟨0, none, ⟨0, false, []⟩⟩ = .ok state ∧
      report.errors = state.report.errors := by
  unfold verify at verified
  rw [bundles] at verified
  rcases bind_eq_ok.mp verified with ⟨_, same, rest⟩
  cases same
  rcases bind_eq_ok.mp rest with ⟨start, same, rest⟩
  cases same
  rcases bind_eq_ok.mp rest with ⟨_, -, rest⟩
  rcases bind_eq_ok.mp rest with ⟨state, looped, written⟩
  cases written
  exact ⟨state, looped, rfl⟩

theorem walked_decodable {report : Report} {failed : List UInt64} (sound : Sound db)
    (bundles : readFailedBundles rust db chainId = .ok failed)
    (verified : verify rust db chainId none none never = .ok report) :
    Decodable rust db chainId := by
  have known := sound_known sound
  refine ⟨known, sound_consistent sound, ?_⟩
  intro number data found
  rcases verify_walk bundles verified with ⟨state, looped, -⟩
  rcases iterate_bytes_forward known chainId 0 with ⟨items, iterated, -, members⟩
  have member := (members number data).mpr ⟨found, UInt64.zero_le⟩
  have entry : ((.ok (number, data) : Except Error (UInt64 × Bytes)) >>= fun item => do
      return (item.1, ← decodeBlock rust.codec item.2)) ∈
      iterate rust.codec db chainId 0 .forward := by
    rw [iterate, iterated]
    exact List.mem_map_of_mem (List.mem_map_of_mem member)
  rcases verify_loop_reads looped _ entry with ⟨item, read⟩
  rcases bind_eq_ok.mp read with ⟨_, same, rest⟩
  cases same
  rcases bind_eq_ok.mp rest with ⟨block, decoded, -⟩
  exact ⟨block, decoded⟩

end Walk

section Walked

variable {rust : RustLibraries} {db : KvDb} {chainId : UInt64} {failed : List UInt64}
  (walked : Walked rust db chainId failed)
include walked

theorem Walked.decodable : Decodable rust db chainId := by
  rcases walked.walked with ⟨report, verified, -⟩
  exact walked_decodable walked.sound walked.bundles verified

theorem Walked.no_defects :
    misnumberedBlocks rust db chainId 0 = ∅ ∧ unlinkedBlocks rust db chainId 0 failed = ∅ := by
  rcases walked.walked with ⟨report, verified, noErrors⟩
  rcases verify_walk walked.bundles verified with ⟨state, looped, counted⟩
  rcases loop_counts_defects walked.decodable 0 failed ⟨0, false, []⟩ with
    ⟨final, finished, total⟩
  cases looped.symm.trans finished
  rw [← Set.ncard_eq_zero (Set.toFinite _), ← Set.ncard_eq_zero (Set.toFinite _)]
  omega

theorem Walked.numbered {number : UInt64} {block : Block}
    (stored : get rust.codec db chainId number = .ok (some block)) : block.number = number := by
  by_contra wrong
  have misnumbered : number ∈ misnumberedBlocks rust db chainId 0 :=
    ⟨UInt64.zero_le, block, stored, wrong⟩
  rw [walked.no_defects.1] at misnumbered
  exact misnumbered

theorem Walked.linked {number : UInt64} {block successor : Block}
    (stored : get rust.codec db chainId number = .ok (some block))
    (next : get rust.codec db chainId (number + 1) = .ok (some successor))
    (clean : number ∉ failed) : rust.blockHash block = successor.parentHash := by
  by_contra different
  have unlinked : number ∈ unlinkedBlocks rust db chainId 0 failed :=
    ⟨UInt64.zero_le, block, successor, stored, next, different, clean⟩
  rw [walked.no_defects.2] at unlinked
  exact unlinked

end Walked

theorem Verified.top {rust : RustLibraries} {db : KvDb} {chainId trusted : UInt64}
    {trustedHash : Hash} {failed : List UInt64}
    (verified : Verified rust db chainId trusted trustedHash failed) {block : Block}
    (stored : get rust.codec db chainId trusted = .ok (some block)) (clean : trusted ∉ failed) :
    rust.blockHash block = trustedHash := by
  rcases verified.requested with ⟨report, requested, noErrors⟩
  rcases verify_requested_count verified.decodable trusted trustedHash failed ⟨0, false, []⟩ with
    ⟨checked, compared, defects⟩
  rcases verify_rest_count verified.decodable trusted failed checked with ⟨final, finished, total⟩
  have whole : verify rust db chainId (some trusted) (some trustedHash) never = .ok final :=
    bind_eq_ok.mpr ⟨failed, verified.bundles, bind_eq_ok.mpr ⟨checked, compared, finished⟩⟩
  cases requested.symm.trans whole
  have accepted : requestedDefects rust db chainId trusted failed (some trustedHash) = 0 := by
    omega
  simp only [requestedDefects, stored] at accepted
  by_contra different
  rw [if_pos ⟨different, clean⟩] at accepted
  cases accepted

def storedChain (rust : RustLibraries) (db : KvDb) (chainId : UInt64) : Chain Block :=
  fun number =>
    match get rust.codec db chainId (UInt64.ofNat number) with
    | .ok found => found
    | .error _ => none

def headerHashing (rust : RustLibraries) : Hashing Block Bytes Hash where
  contents block := (Block.toHeader rust.hashing block).encode
  digest := rust.keccak256
  parent := Block.parentHash

section Chain

variable {rust : RustLibraries} {db : KvDb} {chainId : UInt64}

theorem stored_chain_eq_some {number : Nat} {block : Block} :
    storedChain rust db chainId number = some block ↔
      get rust.codec db chainId (UInt64.ofNat number) = .ok (some block) := by
  unfold storedChain
  cases get rust.codec db chainId (UInt64.ofNat number) with
  | error failure => simp
  | ok found => simp

theorem of_nat_bounds {first last : UInt64} {number : Nat} (above : first.toNat ≤ number)
    (below : number ≤ last.toNat) :
    first ≤ UInt64.ofNat number ∧ UInt64.ofNat number ≤ last ∧
      (UInt64.ofNat number).toNat = number := by
  have bound := last.toNat_lt
  have same : (UInt64.ofNat number).toNat = number := by
    rw [UInt64.toNat_ofNat', Nat.mod_eq_of_lt (by omega)]
  rw [UInt64.le_iff_toNat_le, UInt64.le_iff_toNat_le, same]
  exact ⟨above, below, rfl⟩

theorem verified_chain_linked {trusted first : UInt64} {trustedHash : Hash}
    {failed : List UInt64} (verified : Verified rust db chainId trusted trustedHash failed)
    (complete : Complete db chainId failed first trusted) :
    (headerHashing rust).Linked (storedChain rust db chainId) first.toNat trusted.toNat := by
  constructor
  · intro number above below
    rcases of_nat_bounds above below with ⟨least, most, -⟩
    rcases Option.isSome_iff_exists.mp (complete _ least most).1 with ⟨data, found⟩
    rcases verified.decodable.decodes _ data found with ⟨block, decoded⟩
    exact ⟨block, stored_chain_eq_some.mpr (get_eq_some.mpr ⟨data, found, decoded⟩)⟩
  · intro number block successor above below found next
    rcases of_nat_bounds above (Nat.le_of_lt below) with ⟨least, most, -⟩
    have following : UInt64.ofNat (number + 1) = UInt64.ofNat number + 1 := by
      rw [UInt64.ofNat_add]
      rfl
    rw [stored_chain_eq_some, following] at next
    exact verified.linked (stored_chain_eq_some.mp found) next (complete _ least most).2

end Chain

section Contents

variable {rust : RustLibraries} {left right : Block}

theorem headers_of_encodings
    (sized : (Block.toHeader rust.hashing left).encode.length ≤ isizeMax)
    (same : (Block.toHeader rust.hashing left).encode =
      (Block.toHeader rust.hashing right).encode) :
    withoutOptionalZeros (Block.toHeader rust.hashing left) =
      withoutOptionalZeros (Block.toHeader rust.hashing right) := by
  unfold isizeMax at sized
  have read := reads_header (Block.toHeader rust.hashing left) (by omega) []
  rw [same] at read sized
  have other := reads_header (Block.toHeader rust.hashing right) (by omega) []
  have pair := Except.ok.inj (read.symm.trans other)
  exact congrArg Prod.fst pair

theorem roots_eq {Item : Type} (marshal : Item → Bytes) (items : List Item) :
    computeRootHash rust.hashing marshal items = orderedRoot rust (items.map marshal) :=
  compute_root_hash_eq rust.hashing marshal items

/-- The roots in equal headers fix the items, unless they collide. -/
theorem same_contents_or_collision
    (header : withoutOptionalZeros (Block.toHeader rust.hashing left) =
      withoutOptionalZeros (Block.toHeader rust.hashing right)) :
    SameContents rust left right ∨ Collision rust left right := by
  have transactionRoots := congrArg BlockHeader.transactionsRoot header
  have receiptRoots := congrArg BlockHeader.receiptsRoot header
  simp only [withoutOptionalZeros, Block.toHeader, roots_eq] at transactionRoots receiptRoots
  by_cases transactions : left.transactions.map Transaction.marshal =
      right.transactions.map Transaction.marshal
  · by_cases receipts : left.receipts.map (TransactionReceipt.marshal rust.hashing) =
        right.receipts.map (TransactionReceipt.marshal rust.hashing)
    · exact .inl ⟨header, transactions, receipts⟩
    · exact .inr (.receipts receipts receiptRoots)
  · exact .inr (.transactions transactions transactionRoots)

end Contents

section Agreement

variable {rust : RustLibraries} {left right : KvDb} {chainId trusted first : UInt64}
  {trustedHash : Hash} {leftFailed rightFailed : List UInt64}

theorem stored_names_parent (right : KvDb) (first trusted : UInt64)
    (sized : ∀ number block, get rust.codec left chainId number = .ok (some block) →
      (Block.toHeader rust.hashing block).encode.length ≤ isizeMax) :
    (headerHashing rust).NamesParent (storedChain rust left chainId)
      (storedChain rust right chainId) first.toNat trusted.toNat := by
  intro number one other _ _ found _ same
  have bound := sized _ one (stored_chain_eq_some.mp found)
  exact congrArg BlockHeader.parentHash (headers_of_encodings bound same)

theorem stored_collision {number : Nat} (above : first.toNat ≤ number)
    (below : number ≤ trusted.toNat)
    (collide : (headerHashing rust).CollideAt (storedChain rust left chainId)
      (storedChain rust right chainId) number) :
    ∃ place, place.toNat = number ∧ ∃ one other,
      StoredAt rust left right chainId place one other ∧ Collision rust one other := by
  rcases collide with ⟨one, other, found, otherFound, different, same⟩
  exact ⟨UInt64.ofNat number, (of_nat_bounds above below).2.2, one, other,
    ⟨stored_chain_eq_some.mp found, stored_chain_eq_some.mp otherFound⟩, .header different same⟩

/-- Two databases that pass the verification against the same trusted block hold the same
contents under every number below it, as long as neither lacks a block or has failed bundles
on the way; or they hold a collision on the way. -/
theorem trusted_hash_fixes_chain
    (leftVerified : Verified rust left chainId trusted trustedHash leftFailed)
    (rightVerified : Verified rust right chainId trusted trustedHash rightFailed)
    (leftComplete : Complete left chainId leftFailed first trusted)
    (rightComplete : Complete right chainId rightFailed first trusted)
    (sized : ∀ number block, get rust.codec left chainId number = .ok (some block) →
      (Block.toHeader rust.hashing block).encode.length ≤ isizeMax)
    (number : UInt64) (above : first ≤ number) (below : number ≤ trusted) :
    ∃ one other, StoredAt rust left right chainId number one other ∧
      (SameContents rust one other ∨
        ∃ place, number ≤ place ∧ place ≤ trusted ∧ ∃ early late,
          StoredAt rust left right chainId place early late ∧ Collision rust early late) := by
  have leftLinked := verified_chain_linked leftVerified leftComplete
  have rightLinked := verified_chain_linked rightVerified rightComplete
  have names := stored_names_parent right first trusted sized
  have aboveNat := UInt64.le_iff_toNat_le.mp above
  have belowNat := UInt64.le_iff_toNat_le.mp below
  have trustedClean : ∀ {db : KvDb} {failed : List UInt64},
      Complete db chainId failed first trusted → trusted ∉ failed := fun complete =>
    (complete trusted (above.trans below) (le_refl trusted)).2
  have top : ∀ one other, storedChain rust left chainId trusted.toNat = some one →
      storedChain rust right chainId trusted.toNat = some other →
      (headerHashing rust).hash one = (headerHashing rust).hash other := by
    intro one other found otherFound
    rw [stored_chain_eq_some, UInt64.ofNat_toNat] at found otherFound
    have oneHash := leftVerified.top found (trustedClean leftComplete)
    have otherHash := rightVerified.top otherFound (trustedClean rightComplete)
    exact oneHash.trans otherHash.symm
  rcases leftLinked.stored number.toNat aboveNat belowNat with ⟨one, found⟩
  rcases rightLinked.stored number.toNat aboveNat belowNat with ⟨other, otherFound⟩
  have stored : StoredAt rust left right chainId number one other := by
    have oneStored := stored_chain_eq_some.mp found
    have otherStored := stored_chain_eq_some.mp otherFound
    rw [UInt64.ofNat_toNat] at oneStored otherStored
    exact ⟨oneStored, otherStored⟩
  refine ⟨one, other, stored, ?_⟩
  rcases agree_or_collide leftLinked rightLinked names top aboveNat belowNat with
    agree | ⟨place, higher, within, collide⟩
  · have same := agree one other found otherFound
    rcases same_contents_or_collision (headers_of_encodings (sized number one stored.1) same) with
      contents | collision
    · exact .inl contents
    · exact .inr ⟨number, le_refl number, below, one, other, stored, collision⟩
  · rcases stored_collision (Nat.le_trans aboveNat higher) within collide with
      ⟨there, placed, early, late, held, collision⟩
    right
    rw [← placed] at higher within
    exact ⟨there, UInt64.le_iff_toNat_le.mpr higher, UInt64.le_iff_toNat_le.mpr within, early,
      late, held, collision⟩

end Agreement

section Acceptance

variable {rust : RustLibraries} {db : KvDb} {chainId : UInt64} {failed : List UInt64}
  (sound : Sound db) (bundles : readFailedBundles rust db chainId = .ok failed)
  (decodable : Decodable rust db chainId)
  (numbered : ∀ number block, get rust.codec db chainId number = .ok (some block) →
    block.number = number)
  (linked : ∀ number block successor, get rust.codec db chainId number = .ok (some block) →
    get rust.codec db chainId (number + 1) = .ok (some successor) →
    rust.blockHash block = successor.parentHash ∨ number ∈ failed)

include numbered linked in
theorem no_defects_of_linked (start : UInt64) :
    (misnumberedBlocks rust db chainId start).ncard = 0 ∧
      (unlinkedBlocks rust db chainId start failed).ncard = 0 := by
  rw [Set.ncard_eq_zero (Set.toFinite _), Set.ncard_eq_zero (Set.toFinite _)]
  constructor
  · apply Set.eq_empty_iff_forall_notMem.mpr
    intro number member
    rcases member with ⟨-, found, present, wrong⟩
    exact wrong (numbered number found present)
  · apply Set.eq_empty_iff_forall_notMem.mpr
    intro number member
    rcases member with ⟨-, found, successor, present, next, different, clean⟩
    rcases linked number found successor present next with same | excused
    · exact different same
    · exact clean excused

include sound bundles decodable numbered linked

theorem walked_of_linked : Walked rust db chainId failed := by
  rcases verify_rest_count decodable 0 failed ⟨0, false, []⟩ with ⟨final, finished, total⟩
  rcases no_defects_of_linked numbered linked 0 with ⟨misnumbered, unlinked⟩
  constructor
  · exact sound
  · exact bundles
  · refine ⟨final, ?_, ?_⟩
    · rw [verify, bundles]
      exact finished
    · rw [total, misnumbered, unlinked]

theorem verified_of_linked {trusted : UInt64} {trustedHash : Hash} {block : Block}
    (stored : get rust.codec db chainId trusted = .ok (some block))
    (top : rust.blockHash block = trustedHash ∨ trusted ∈ failed) :
    Verified rust db chainId trusted trustedHash failed := by
  have accepted : requestedDefects rust db chainId trusted failed (some trustedHash) = 0 := by
    simp only [requestedDefects, stored]
    rw [if_neg]
    intro both
    rcases top with same | excused
    · exact both.1 same
    · exact both.2 excused
  rcases verify_requested_count decodable trusted trustedHash failed ⟨0, false, []⟩ with
    ⟨checked, compared, defects⟩
  rcases verify_rest_count decodable trusted failed checked with ⟨final, finished, total⟩
  rcases no_defects_of_linked numbered linked trusted with ⟨misnumbered, unlinked⟩
  constructor
  · exact walked_of_linked sound bundles decodable numbered linked
  · refine ⟨final, ?_, ?_⟩
    · exact bind_eq_ok.mpr ⟨failed, bundles, bind_eq_ok.mpr ⟨checked, compared, finished⟩⟩
    · rw [total, defects, accepted, misnumbered, unlinked]

end Acceptance

theorem london_verified {db : KvDb} (sound : Sound db)
    (genesisFound : getBytes db 1 0 = some (londonData londonGenesis))
    (childFound : getBytes db 1 1 = some (londonData londonChild))
    (noBundles : getFailedBundles db 1 = none)
    (blocks : ∀ number found, getBytes db 1 number = some found →
      (number = 0 ∧ found = londonData londonGenesis) ∨
        (number = 1 ∧ found = londonData londonChild)) :
    Verified londonRust db 1 1 (londonRust.blockHash londonChild) [] ∧
      Complete db 1 [] 0 1 ∧
      ∀ number block, get londonRust.codec db 1 number = .ok (some block) →
        (number = 0 ∧ block = londonGenesis) ∨ (number = 1 ∧ block = londonChild) := by
  have read : ∀ number block, get londonRust.codec db 1 number = .ok (some block) →
      (number = 0 ∧ block = londonGenesis) ∨ (number = 1 ∧ block = londonChild) := by
    intro number block stored
    rcases get_eq_some.mp stored with ⟨data, found, decoded⟩
    rcases blocks number data found with ⟨zero, same⟩ | ⟨one, same⟩
    · rw [same, london_genesis_decodes] at decoded
      cases decoded
      exact .inl ⟨zero, rfl⟩
    · rw [same, london_child_decodes] at decoded
      cases decoded
      exact .inr ⟨one, rfl⟩
  have decodable : Decodable londonRust db 1 := by
    refine ⟨sound_known sound, sound_consistent sound, ?_⟩
    intro number data found
    rcases blocks number data found with ⟨-, same⟩ | ⟨-, same⟩
    · exact ⟨londonGenesis, by rw [same]; exact london_genesis_decodes⟩
    · exact ⟨londonChild, by rw [same]; exact london_child_decodes⟩
  refine ⟨verified_of_linked sound ?_ decodable ?_ ?_ (get_eq_some.mpr ⟨_, childFound,
    london_child_decodes⟩) (.inl rfl), ?_, read⟩
  · rw [readFailedBundles, noBundles]
  · intro number block stored
    rcases read number block stored with ⟨place, same⟩ | ⟨place, same⟩
    all_goals
      rw [place, same]
      rfl
  · intro number block successor stored next
    rcases read number block stored with ⟨place, same⟩ | ⟨place, same⟩
    · rw [place] at next
      rcases read _ successor next with ⟨wrong, -⟩ | ⟨-, child⟩
      · cases wrong
      · left
        rw [same, child]
        exact london_genesis_hash
    · rw [place] at next
      rcases read _ successor next with ⟨wrong, -⟩ | ⟨wrong, -⟩
      · cases wrong
      · cases wrong
  · intro number _ below
    have small := UInt64.le_iff_toNat_le.mp below
    have either : number = 0 ∨ number = 1 := by
      rw [← UInt64.toNat_inj, ← UInt64.toNat_inj]
      change number.toNat = 0 ∨ number.toNat = 1
      change number.toNat ≤ 1 at small
      omega
    rcases either with zero | one
    · rw [zero, genesisFound]
      exact ⟨rfl, List.not_mem_nil⟩
    · rw [one, childFound]
      exact ⟨rfl, List.not_mem_nil⟩

/-- Two databases with the same two blocks, one of which also holds a block of another
chain. -/
theorem trusted_hash_fixes_two_blocks :
    ∃ left right one other, getBytes right 2 0 = some [] ∧
      StoredAt londonRust left right 1 0 one other ∧
      (SameContents londonRust one other ∨
        ∃ place, (0 : UInt64) ≤ place ∧ place ≤ 1 ∧ ∃ early late,
          StoredAt londonRust left right 1 place early late ∧
            Collision londonRust early late) := by
  rcases london_db_reachable with
    ⟨left, reachable, genesisFound, childFound, noBundles, blocks⟩
  rcases put_bytes_reachable reachable 2 0 [] (by decide) with
    ⟨right, stored, rightReachable, otherFound⟩
  have same : ∀ number, getBytes right 1 number = getBytes left 1 number := fun number =>
    (get_bytes_put_bytes stored 1 number).trans (if_neg (by simp))
  have bundles : getFailedBundles right 1 = getFailedBundles left 1 :=
    put_bytes_frame stored (by decide) (by decide)
      (by decide : BlockKeys.makeFailedBundlesKey 1 ≠ BlockKeys.chainIdsKey)
  rcases london_verified (reachable_sound reachable) genesisFound childFound noBundles blocks with
    ⟨leftVerified, leftComplete, read⟩
  rcases london_verified (reachable_sound rightReachable) ((same 0).trans genesisFound)
    ((same 1).trans childFound) (bundles.trans noBundles)
    (fun number found present => blocks number found ((same number).symm.trans present)) with
    ⟨rightVerified, rightComplete, -⟩
  have sized : ∀ number block, get londonRust.codec left 1 number = .ok (some block) →
      (Block.toHeader londonRust.hashing block).encode.length ≤ isizeMax := by
    intro number block found
    rcases read number block found with ⟨-, genesis⟩ | ⟨-, child⟩
    · rw [genesis]
      decide +kernel
    · rw [child]
      decide +kernel
  rcases trusted_hash_fixes_chain leftVerified rightVerified leftComplete rightComplete sized 0
    (le_refl 0) (by decide) with ⟨one, other, held, fixed⟩
  exact ⟨left, right, one, other, otherFound, held, fixed⟩

end Bertha.TrustedChain
