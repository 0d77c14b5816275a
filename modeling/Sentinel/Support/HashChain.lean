import Mathlib.Data.Set.Function
import Mathlib.Data.List.Basic
import Mathlib.Data.List.Induction
import Mathlib.Tactic.Common

/-!
# Hash chains

Blocks that carry the hash of the block before and a number one above its
number.  Where the hash is injective, the head of a chain decides every block
of it.
-/

namespace Sentinel
namespace HashChain

variable {Block Hash : Type*} (hash link : Block → Hash) (numbered : ℤ → Block → Prop)

/-- The blocks are numbered from `n`, and each carries the hash of the one
before; the first carries `prev`. -/
def Chained : ℤ → Hash → List Block → Prop
  | _, _, [] => True
  | n, prev, b :: bs => numbered n b ∧ link b = prev ∧ Chained (n + 1) (hash b) bs

def head : Hash → List Block → Hash
  | prev, [] => prev
  | _, b :: bs => head (hash b) bs

@[simp] theorem head_append (prev : Hash) (bs bs' : List Block) :
    head hash prev (bs ++ bs') = head hash (head hash prev bs) bs' := by
  induction bs generalizing prev with
  | nil => rfl
  | cons b bs ih => exact ih (hash b)

theorem chained_append {n : ℤ} {prev : Hash} {bs bs' : List Block} :
    Chained hash link numbered n prev (bs ++ bs') ↔
      Chained hash link numbered n prev bs ∧
        Chained hash link numbered (n + bs.length) (head hash prev bs) bs' := by
  induction bs generalizing n prev with
  | nil => simp [Chained, head]
  | cons b bs ih =>
      have hlength : n + 1 + (bs.length : ℤ) = n + ((b :: bs).length : ℕ) := by
        rw [List.length_cons]
        omega
      simp only [List.cons_append, Chained, head, ih, hlength, and_assoc]

theorem chained_concat {n : ℤ} {prev : Hash} {bs : List Block} {b : Block} :
    Chained hash link numbered n prev (bs ++ [b]) ↔
      Chained hash link numbered n prev bs ∧ numbered (n + bs.length) b ∧
        link b = head hash prev bs := by
  rw [chained_append]
  simp [Chained]

variable {hash link numbered}

theorem Chained.eq_of_head_eq {blocks : Set Block} (hinj : Set.InjOn hash blocks)
    {n : ℤ} {prev : Hash} {bs bs' : List Block}
    (hbs : Chained hash link numbered n prev bs) (hbs' : Chained hash link numbered n prev bs')
    (hmem : ∀ b ∈ bs, b ∈ blocks) (hmem' : ∀ b ∈ bs', b ∈ blocks)
    (hlength : bs.length = bs'.length) (hhead : head hash prev bs = head hash prev bs') :
    bs = bs' := by
  induction bs using List.reverseRecOn generalizing bs' with
  | nil => exact (List.length_eq_zero_iff.1 hlength.symm).symm
  | append_singleton bs b ih =>
      rcases bs'.eq_nil_or_concat' with rfl | ⟨bs', b', rfl⟩
      · simp at hlength
      · obtain ⟨hchain, -, hlink⟩ := (chained_concat hash link numbered).1 hbs
        obtain ⟨hchain', -, hlink'⟩ := (chained_concat hash link numbered).1 hbs'
        have hlast : b = b' := by
          have hhash : hash b = hash b' := by simpa [head] using hhead
          exact hinj (hmem b (by simp)) (hmem' b' (by simp)) hhash
        subst hlast
        have hshort := ih hchain hchain' (fun c hc => hmem c (by simp [hc]))
          (fun c hc => hmem' c (by simp [hc])) (by simpa using hlength) (hlink.symm.trans hlink')
        rw [hshort]

theorem Chained.length_eq_of_head_eq {blocks : Set Block} (hinj : Set.InjOn hash blocks)
    (hnumber : ∀ {m m' : ℤ} {b : Block}, numbered m b → numbered m' b → m = m')
    {n : ℤ} {prev : Hash} {bs bs' : List Block}
    (hbs : Chained hash link numbered n prev bs) (hbs' : Chained hash link numbered n prev bs')
    (hmem : ∀ b ∈ bs, b ∈ blocks) (hmem' : ∀ b ∈ bs', b ∈ blocks)
    (hne : bs ≠ []) (hne' : bs' ≠ []) (hhead : head hash prev bs = head hash prev bs') :
    bs.length = bs'.length := by
  rcases bs.eq_nil_or_concat' with rfl | ⟨bs, b, rfl⟩
  · exact absurd rfl hne
  rcases bs'.eq_nil_or_concat' with rfl | ⟨bs', b', rfl⟩
  · exact absurd rfl hne'
  obtain ⟨-, hnumbered, -⟩ := (chained_concat hash link numbered).1 hbs
  obtain ⟨-, hnumbered', -⟩ := (chained_concat hash link numbered).1 hbs'
  have hlast : b = b' := by
    have hhash : hash b = hash b' := by simpa [head] using hhead
    exact hinj (hmem b (by simp)) (hmem' b' (by simp)) hhash
  subst hlast
  have hlengths := hnumber hnumbered hnumbered'
  simp only [List.length_append, List.length_singleton]
  omega

end HashChain
end Sentinel
