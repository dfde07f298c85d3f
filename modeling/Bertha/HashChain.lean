import Mathlib.Logic.Basic

/-!
# Chains linked by hashes

A chain gives at most one block for each number. A block has contents, which are hashed, and
names the hash of its predecessor. In two linked chains the blocks of one number that have
one hash have the same contents from there down, unless two different contents that the
chains hold under one number have the same hash. Nothing is assumed of the hash function, and
the colliding contents are named.
-/

namespace Bertha.HashChain

set_option autoImplicit false

abbrev Chain (Block : Type) := Nat → Option Block

variable {Block Contents Digest : Type}

/-- What is hashed of a block, how, and the hash that the block names. -/
structure Hashing (Block Contents Digest : Type) where
  contents : Block → Contents
  digest : Contents → Digest
  parent : Block → Digest

variable (hashing : Hashing Block Contents Digest)

namespace Hashing

def hash (block : Block) : Digest := hashing.digest (hashing.contents block)

def Collide (left right : Block) : Prop :=
  hashing.contents left ≠ hashing.contents right ∧ hashing.hash left = hashing.hash right

/-- All numbers of an interval have a block, whose successor names its hash. -/
structure Linked (chain : Chain Block) (lower upper : Nat) : Prop where
  stored : ∀ number, lower ≤ number → number ≤ upper → ∃ block, chain number = some block
  named : ∀ number block successor, lower ≤ number → number < upper →
    chain number = some block → chain (number + 1) = some successor →
    hashing.hash block = hashing.parent successor

/-- The contents of the blocks that may stand under these numbers say what their parent is. -/
def NamesParent (left right : Chain Block) (lower upper : Nat) : Prop :=
  ∀ number first second, lower ≤ number → number ≤ upper → left number = some first →
    right number = some second → hashing.contents first = hashing.contents second →
    hashing.parent first = hashing.parent second

def AgreeAt (left right : Chain Block) (number : Nat) : Prop :=
  ∀ first second, left number = some first → right number = some second →
    hashing.contents first = hashing.contents second

def CollideAt (left right : Chain Block) (number : Nat) : Prop :=
  ∃ first second, left number = some first ∧ right number = some second ∧
    hashing.Collide first second

end Hashing

variable {hashing} {left right : Chain Block} {lower upper : Nat}

theorem contents_eq_or_collide {first second : Block}
    (same : hashing.hash first = hashing.hash second) :
    hashing.contents first = hashing.contents second ∨ hashing.Collide first second := by
  by_cases equal : hashing.contents first = hashing.contents second
  · exact .inl equal
  · exact .inr ⟨equal, same⟩

theorem hashes_agree_below (leftLinked : hashing.Linked left lower upper)
    (rightLinked : hashing.Linked right lower upper)
    (names : hashing.NamesParent left right lower upper) {number : Nat} (above : lower ≤ number)
    (below : number < upper)
    (same : ∀ first second, left (number + 1) = some first → right (number + 1) = some second →
      hashing.hash first = hashing.hash second) :
    hashing.CollideAt left right (number + 1) ∨
      ∀ first second, left number = some first → right number = some second →
        hashing.hash first = hashing.hash second := by
  have later : lower ≤ number + 1 := Nat.le_succ_of_le above
  rcases leftLinked.stored (number + 1) later below with ⟨next, found⟩
  rcases rightLinked.stored (number + 1) later below with ⟨other, otherFound⟩
  rcases contents_eq_or_collide (same next other found otherFound) with equal | collide
  · right
    intro first second firstFound secondFound
    have parents := names (number + 1) next other later below found otherFound equal
    rw [leftLinked.named number first next above below firstFound found, parents,
      rightLinked.named number second other above below secondFound otherFound]
  · exact .inl ⟨next, other, found, otherFound, collide⟩

theorem hashes_agree_or_collide (leftLinked : hashing.Linked left lower upper)
    (rightLinked : hashing.Linked right lower upper)
    (names : hashing.NamesParent left right lower upper)
    (top : ∀ first second, left upper = some first → right upper = some second →
      hashing.hash first = hashing.hash second) (distance : Nat)
    (inside : lower + distance ≤ upper) :
    (∃ number, upper - distance < number ∧ number ≤ upper ∧
        hashing.CollideAt left right number) ∨
      ∀ first second, left (upper - distance) = some first →
        right (upper - distance) = some second → hashing.hash first = hashing.hash second := by
  induction distance with
  | zero => exact .inr top
  | succ distance ih =>
      rcases ih (by omega) with collision | same
      · rcases collision with ⟨number, above, within, collide⟩
        exact .inl ⟨number, by omega, within, collide⟩
      · have next : upper - distance = upper - (distance + 1) + 1 := by omega
        rw [next] at same
        rcases hashes_agree_below leftLinked rightLinked names (by omega) (by omega) same with
          collide | agree
        · exact .inl ⟨upper - (distance + 1) + 1, by omega, by omega, collide⟩
        · exact .inr agree

/-- Linked chains with one hash at the top have the same contents at every number below, or a
collision stands between that number and the top. -/
theorem agree_or_collide (leftLinked : hashing.Linked left lower upper)
    (rightLinked : hashing.Linked right lower upper)
    (names : hashing.NamesParent left right lower upper)
    (top : ∀ first second, left upper = some first → right upper = some second →
      hashing.hash first = hashing.hash second) {number : Nat} (above : lower ≤ number)
    (below : number ≤ upper) :
    hashing.AgreeAt left right number ∨
      ∃ collision, number ≤ collision ∧ collision ≤ upper ∧
        hashing.CollideAt left right collision := by
  have place : upper - (upper - number) = number := by omega
  have agree := hashes_agree_or_collide leftLinked rightLinked names top (upper - number)
    (by omega)
  rw [place] at agree
  rcases agree with ⟨collision, higher, within, collide⟩ | same
  · exact .inr ⟨collision, Nat.le_of_lt higher, within, collide⟩
  · by_cases collides : hashing.CollideAt left right number
    · exact .inr ⟨number, Nat.le_refl number, below, collides⟩
    · left
      intro first second found otherFound
      rcases contents_eq_or_collide (same first second found otherFound) with equal | collide
      · exact equal
      · exact absurd ⟨first, second, found, otherFound, collide⟩ collides

end Bertha.HashChain
