import Bertha.BigEndian

/-!
# Iterating over the blocks of era files

`EraDir::blocks` of `genesis-parser/src/era_dir/mod.rs`: the files in descending order of
their names, and the blocks of each in reverse. The items of a file are collected with the
errors among them before they are reversed, and the next file is read whatever the last one
yielded. Reading a file is a parameter.
-/

namespace Bertha.EraBlocks

open Bertha.BigEndian

set_option autoImplicit false

variable {Block Error : Type}

structure EraDir where
  files : List Bytes
  chainId : UInt64

/-- `R::read_file` with the items that its iterator yields. -/
abbrev ReadFile (Block Error : Type) :=
  Bytes → UInt64 → Except Error (List (Except Error Block))

def sortReverse (files : List Bytes) : List Bytes :=
  files.mergeSort fun left right => (compare right left).isLE

def EraDir.blocks (readFile : ReadFile Block Error) (dir : EraDir) : List (Except Error Block) :=
  (sortReverse dir.files).flatMap fun path =>
    match readFile path dir.chainId with
    | .ok blocks => blocks.reverse
    | .error error => [.error error]

def IsOk (item : Except Error Block) : Prop := ∃ block, item = .ok block

def IsError (item : Except Error Block) : Prop := ∃ error, item = .error error

/-- The documented behaviour: no block behind an error. -/
def StopsAtFirstError (items : List (Except Error Block)) : Prop :=
  items.Pairwise fun earlier later => IsError earlier → ¬ IsOk later

def fileItems (readFile : ReadFile Block Error) (chainId : UInt64) (path : Bytes) :
    List (Except Error Block) :=
  match readFile path chainId with
  | .ok blocks => blocks
  | .error error => [.error error]

theorem blocks_eq (readFile : ReadFile Block Error) (dir : EraDir) :
    dir.blocks readFile =
      (sortReverse dir.files).flatMap fun path => (fileItems readFile dir.chainId path).reverse := by
  unfold EraDir.blocks fileItems
  congr 1
  funext path
  cases readFile path dir.chainId with
  | ok blocks => rfl
  | error error => rfl

theorem sort_reverse_perm (files : List Bytes) : (sortReverse files).Perm files :=
  List.mergeSort_perm files _

theorem sort_reverse_descending (files : List Bytes) :
    (sortReverse files).Pairwise fun earlier later => (compare later earlier).isLE := by
  apply List.pairwise_mergeSort
  · intro first second third before after
    exact Std.TransOrd.isLE_trans after before
  · intro left right
    rw [Bool.or_eq_true]
    by_cases ordered : (compare right left).isLE
    · exact .inl ordered
    · have reversed : compare left right = .lt := Std.OrientedCmp.lt_of_not_isLE ordered
      exact .inr (Ordering.isLE_of_eq_lt reversed)

/-- No file has a block in front of an error, and no file behind one with an error has a
block. -/
def ErrorsInOrder (readFile : ReadFile Block Error) (dir : EraDir) : Prop :=
  (∀ path ∈ dir.files, (fileItems readFile dir.chainId path).Pairwise fun earlier later =>
    IsOk earlier → ¬ IsError later) ∧
  (sortReverse dir.files).Pairwise fun earlier later =>
    (∃ item ∈ fileItems readFile dir.chainId earlier, IsError item) →
      ∀ item ∈ fileItems readFile dir.chainId later, ¬ IsOk item

theorem stops_iff_errors_in_order (readFile : ReadFile Block Error) (dir : EraDir) :
    StopsAtFirstError (dir.blocks readFile) ↔ ErrorsInOrder readFile dir := by
  rw [StopsAtFirstError, blocks_eq, List.pairwise_flatMap, ErrorsInOrder]
  apply and_congr
  · constructor
    · intro each path member
      have reversed := each path ((sort_reverse_perm dir.files).mem_iff.mpr member)
      rw [List.pairwise_reverse] at reversed
      exact reversed.imp fun separate ok error => separate error ok
    · intro each path member
      have ordered := each path ((sort_reverse_perm dir.files).mem_iff.mp member)
      rw [List.pairwise_reverse]
      exact ordered.imp fun separate error ok => separate ok error
  · have same : ∀ earlier later,
        (∀ first ∈ (fileItems readFile dir.chainId earlier).reverse,
          ∀ second ∈ (fileItems readFile dir.chainId later).reverse,
            IsError first → ¬ IsOk second) ↔
        ((∃ item ∈ fileItems readFile dir.chainId earlier, IsError item) →
          ∀ item ∈ fileItems readFile dir.chainId later, ¬ IsOk item) := by
      intro earlier later
      simp only [List.mem_reverse]
      constructor
      · rintro separate ⟨first, firstMember, error⟩ second secondMember
        exact separate first firstMember second secondMember error
      · intro separate first firstMember second secondMember error
        exact separate ⟨first, firstMember, error⟩ second secondMember
    simp only [same]

/-- The iteration stops at the first error exactly if the errors of each file come first in it
and nothing follows a file with an error; without errors the files come in descending order
and the blocks of each reversed. -/
theorem era_blocks_exact (readFile : ReadFile Block Error) (dir : EraDir) :
    (StopsAtFirstError (dir.blocks readFile) ↔ ErrorsInOrder readFile dir) ∧
    (sortReverse dir.files).Perm dir.files ∧
    (sortReverse dir.files).Pairwise (fun earlier later => (compare later earlier).isLE) ∧
    ∀ blocksOf : Bytes → List Block,
      (∀ path ∈ dir.files, readFile path dir.chainId = .ok ((blocksOf path).map .ok)) →
      dir.blocks readFile =
        ((sortReverse dir.files).flatMap fun path => (blocksOf path).reverse).map .ok := by
  refine ⟨stops_iff_errors_in_order readFile dir, sort_reverse_perm dir.files,
    sort_reverse_descending dir.files, ?_⟩
  intro blocksOf reads
  rw [List.map_flatMap, EraDir.blocks]
  apply List.flatMap_congr
  intro path member
  rw [reads path ((sort_reverse_perm dir.files).mem_iff.mp member)]
  exact (List.map_reverse).symm

def brokenBlock : ReadFile Nat String := fun _ _ => .ok [.ok 1, .error "broken"]

def brokenFile : ReadFile Nat String := fun path _ =>
  if path = [2] then .error "broken" else .ok [.ok 1]

theorem era_blocks_after_error :
    EraDir.blocks brokenBlock ⟨[[1]], 1⟩ = [.error "broken", .ok 1] ∧
    EraDir.blocks brokenFile ⟨[[2], [1]], 1⟩ = [.error "broken", .ok 1] ∧
    ¬ StopsAtFirstError (EraDir.blocks brokenBlock ⟨[[1]], 1⟩) ∧
    ¬ StopsAtFirstError (EraDir.blocks brokenFile ⟨[[2], [1]], 1⟩) := by
  have first : EraDir.blocks brokenBlock ⟨[[1]], 1⟩ = [.error "broken", .ok 1] := by
    rw [EraDir.blocks, sortReverse, List.mergeSort_of_pairwise (List.pairwise_singleton _ _)]
    rfl
  have second : EraDir.blocks brokenFile ⟨[[2], [1]], 1⟩ = [.error "broken", .ok 1] := by
    rw [EraDir.blocks, sortReverse, List.mergeSort_of_pairwise (by decide)]
    rfl
  have resumed : ¬ StopsAtFirstError [.error "broken", .ok 1] := by
    intro stops
    have separate := (List.pairwise_cons.mp stops).1 (.ok 1) List.mem_cons_self
    exact separate ⟨"broken", rfl⟩ ⟨1, rfl⟩
  exact ⟨first, second, by rwa [first], by rwa [second]⟩

end Bertha.EraBlocks
