import Mathlib.Computability.Language

/-! # Patterns of bounded length

Regular expressions without a star, over tests of single elements. A matcher that backtracks gives
all rests that a match at the front of a word can leave; its full matches are the words of the
language of the pattern.
-/

inductive Pattern (α : Type) where
  | eps
  | test (p : α → Bool)
  | seq (first second : Pattern α)
  | alt (first second : Pattern α)

namespace Pattern

variable {α : Type}

def optional (p : Pattern α) : Pattern α := alt p eps

def times (p : Pattern α) : Nat → Pattern α
  | 0 => eps
  | n + 1 => seq p (times p n)

def rests : Pattern α → List α → List (List α)
  | eps, word => [word]
  | test _, [] => []
  | test p, a :: word => if p a then [word] else []
  | seq first second, word => (first.rests word).flatMap second.rests
  | alt first second, word => first.rests word ++ second.rests word

def fullMatch (p : Pattern α) (word : List α) : Bool := (p.rests word).any List.isEmpty

def language : Pattern α → Language α
  | eps => 1
  | test p => { word | ∃ a, p a = true ∧ word = [a] }
  | seq first second => first.language * second.language
  | alt first second => first.language + second.language

variable {p q : Pattern α} {word rest : List α}

@[simp] theorem mem_language_eps : word ∈ (eps : Pattern α).language ↔ word = [] := Iff.rfl

@[simp] theorem mem_language_test {f : α → Bool} :
    word ∈ (test f).language ↔ ∃ a, f a = true ∧ word = [a] := Iff.rfl

@[simp] theorem mem_language_seq :
    word ∈ (seq p q).language ↔ ∃ a ∈ p.language, ∃ b ∈ q.language, a ++ b = word :=
  Language.mem_mul

@[simp] theorem mem_language_alt :
    word ∈ (alt p q).language ↔ word ∈ p.language ∨ word ∈ q.language := Iff.rfl

theorem mem_rests_iff : rest ∈ p.rests word ↔ ∃ front ∈ p.language, word = front ++ rest := by
  induction p generalizing word rest with
  | eps => simp [rests, eq_comm]
  | test f =>
    cases word with
    | nil => simp [rests]
    | cons a word =>
      rw [rests]
      constructor
      · intro hMem
        split at hMem
        · next hTest =>
          rw [List.mem_singleton] at hMem
          exact ⟨[a], ⟨a, hTest, rfl⟩, by rw [hMem]; rfl⟩
        · cases hMem
      · rintro ⟨_, ⟨b, hTest, rfl⟩, hEq⟩
        obtain ⟨rfl, rfl⟩ := List.cons.inj hEq
        rw [if_pos hTest]
        exact List.mem_singleton_self _
  | seq first second ihFirst ihSecond =>
    simp only [rests, List.mem_flatMap, ihFirst, ihSecond, mem_language_seq]
    constructor
    · rintro ⟨_, ⟨a, ha, rfl⟩, b, hb, rfl⟩
      exact ⟨a ++ b, ⟨a, ha, b, hb, rfl⟩, by rw [List.append_assoc]⟩
    · rintro ⟨_, ⟨a, ha, b, hb, rfl⟩, rfl⟩
      exact ⟨b ++ rest, ⟨a, ha, by rw [List.append_assoc]⟩, b, hb, rfl⟩
  | alt first second ihFirst ihSecond =>
    simp only [rests, List.mem_append, ihFirst, ihSecond, mem_language_alt, or_and_right, exists_or]

theorem fullMatch_iff : p.fullMatch word = true ↔ word ∈ p.language := by
  rw [fullMatch, List.any_eq_true]
  constructor
  · rintro ⟨rest, hRest, hEmpty⟩
    obtain ⟨front, hFront, rfl⟩ := mem_rests_iff.mp hRest
    rw [List.isEmpty_iff.mp hEmpty, List.append_nil]
    exact hFront
  · intro hWord
    exact ⟨[], mem_rests_iff.mpr ⟨word, hWord, (List.append_nil word).symm⟩, rfl⟩

end Pattern
