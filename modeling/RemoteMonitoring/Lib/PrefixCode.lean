/-
Module: RemoteMonitoring.Lib.PrefixCode
Purpose: Codes that can be read off the front of a longer string: no code word begins another
  one, so a reader that takes exactly the code words refuses every word that is cut short.
Trusted boundary: none
Main exports: PrefixFree, Exact, Exact.prefixFree, Exact.refuses_cut
-/
import Mathlib.Data.List.Basic

namespace PrefixCode

variable {α β : Type*}

/-- `codes x u` says that `u` is a code word of `x`.  Whatever follows a code word,
the value and the rest can be told from the whole string. -/
def PrefixFree (codes : α → List β → Prop) : Prop :=
  ∀ x y u v s t, codes x u → codes y v → u ++ s = v ++ t → x = y ∧ s = t

/-- `reads w x rest` says that a reader makes `x` of the front of `w` and leaves
`rest`.  An exact reader takes the code words, and nothing else. -/
def Exact (codes : α → List β → Prop) (reads : List β → α → List β → Prop) : Prop :=
  ∀ w x rest, reads w x rest ↔ ∃ u, codes x u ∧ w = u ++ rest

variable {codes : α → List β → Prop} {reads : List β → α → List β → Prop}

/-- What an exact reader with one result reads is prefix-free. -/
theorem Exact.prefixFree (exact : Exact codes reads)
    (functional : ∀ {w x y s t}, reads w x s → reads w y t → x = y ∧ s = t) :
    PrefixFree codes := by
  intro x y u v s t one two same
  have first : reads (u ++ s) x s := (exact _ _ _).mpr ⟨u, one, rfl⟩
  have second : reads (u ++ s) y t := (exact _ _ _).mpr ⟨v, two, same⟩
  exact functional first second

/-- No code word begins with another one. -/
theorem PrefixFree.eq_of_prefix (free : PrefixFree codes) {x y : α} {u v : List β}
    (one : codes x u) (two : codes y v) (front : u <+: v) : x = y ∧ u = v := by
  obtain ⟨s, same⟩ := front
  have whole : u ++ s = v ++ [] := by simpa using same
  obtain ⟨value, nothing⟩ := free _ _ _ _ _ _ one two whole
  subst nothing
  exact ⟨value, by simpa using same⟩

/-- A word that is cut short is refused: nothing is read off it. -/
theorem Exact.refuses_cut (exact : Exact codes reads) (free : PrefixFree codes) {x : α}
    {w cut : List β} (word : codes x w) (front : cut <+: w) (short : cut.length < w.length)
    (y : α) (rest : List β) : ¬ reads cut y rest := by
  intro accepted
  obtain ⟨u, inner, same⟩ := (exact _ _ _).mp accepted
  have begins : u <+: w := (same ▸ List.prefix_append u rest : u <+: cut).trans front
  obtain ⟨_, whole⟩ := free.eq_of_prefix inner word begins
  have longer : w.length ≤ cut.length := by
    rw [same, whole]
    simp
  exact Nat.not_lt.mpr longer short

end PrefixCode
