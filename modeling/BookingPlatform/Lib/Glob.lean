import Mathlib.Tactic

/-!
# Glob patterns

The patterns that a key store lists its keys by: `*` for any characters, `?` for
one, `[…]` for one of a class, and a backslash before a character that stands for
itself.

## Main definitions

* `accepts` — a pattern accepts a text.
* `special` — the characters that do not stand for themselves.

## Main results

* `accepts_literal_star` — a literal text with a star at its end accepts what the
  text is a prefix of.
-/

namespace Glob

/-- A character is between two others, whichever is first. -/
def between (a b c : Char) : Bool := (a ≤ c ∧ c ≤ b) ∨ (b ≤ c ∧ c ≤ a)

/-- Whether a class has the character, and the pattern after the class. -/
def readClass (c : Char) : List Char → Bool × List Char
  | [] => (false, [])
  | ']' :: p => (false, p)
  | '\\' :: a :: p => ((readClass c p).1 || a == c, (readClass c p).2)
  | a :: '-' :: b :: p => ((readClass c p).1 || between a b c, (readClass c p).2)
  | a :: p => ((readClass c p).1 || a == c, (readClass c p).2)

theorem length_readClass (c : Char) (p : List Char) : (readClass c p).2.length ≤ p.length := by
  fun_induction readClass c p <;> simp only [List.length_cons] at * <;> omega

/-- Whether a pattern accepts a text. -/
def accepts : List Char → List Char → Bool
  | [], text => text.isEmpty
  | '*' :: p, [] => accepts p []
  | '*' :: p, c :: text => accepts p (c :: text) || accepts ('*' :: p) text
  | '?' :: p, _ :: text => accepts p text
  | '[' :: '^' :: p, c :: text => !(readClass c p).1 && accepts (readClass c p).2 text
  | '[' :: p, c :: text => (readClass c p).1 && accepts (readClass c p).2 text
  | '\\' :: a :: p, c :: text => a == c && accepts p text
  | a :: p, c :: text => a == c && accepts p text
  | _ :: _, [] => false
termination_by p text => p.length + text.length
decreasing_by
  all_goals simp only [List.length_cons, List.length_nil]
  all_goals try have hclass := length_readClass c p
  all_goals omega

/-- The characters that stand for something else. -/
def special : List Char := ['*', '?', '[', '\\']

/-- A character that is not special stands for itself. -/
theorem accepts_cons {a : Char} (ha : a ∉ special) (p : List Char) (c : Char) (text : List Char) :
    accepts (a :: p) (c :: text) = (a == c && accepts p text) := by
  simp only [special, List.mem_cons, List.not_mem_nil, or_false, not_or] at ha
  obtain ⟨h₁, h₂, h₃, h₄⟩ := ha
  rw [accepts] <;> simp [*]

theorem accepts_star (text : List Char) : accepts ['*'] text = true := by
  induction text with
  | nil => simp [accepts]
  | cons c text ih => simp [accepts, ih]

/-- **A literal text with a star at its end.** -/
theorem accepts_literal_star {p : List Char} (hp : ∀ c ∈ p, c ∉ special) (text : List Char) :
    accepts (p ++ ['*']) text = true ↔ p <+: text := by
  induction p generalizing text with
  | nil => simp [accepts_star]
  | cons a p ih =>
    have ha := hp a List.mem_cons_self
    have hrest := ih fun c hc => hp c (List.mem_cons_of_mem a hc)
    cases text with
    | nil =>
      simp only [special, List.mem_cons, List.not_mem_nil, or_false, not_or] at ha
      simp [accepts, ha]
    | cons c text =>
      rw [List.cons_append, accepts_cons ha, Bool.and_eq_true, beq_iff_eq, hrest,
        List.cons_prefix_cons]

end Glob
