import Mathlib.Data.Nat.Notation
import Mathlib.Data.List.Basic

/-! Well-formed UTF-8. A lead octet fixes the ranges of the octets that must follow it; a
text is well formed if it ends with nothing owed. -/
namespace TerrapiVault.Utf8

/-- A range of octets, both ends included. -/
abbrev Range : Type := ℕ × ℕ

def continuation : Range := (128, 191)

/-- What a lead octet demands after it; no octet at all for one that cannot lead. -/
def demands (lead : ℕ) : Option (List Range) :=
  if lead < 128 then some []
  else if lead < 194 then none
  else if lead < 224 then some [continuation]
  else if lead < 240 then
    -- no overlong three-octet form, no surrogate
    some [(if lead = 224 then 160 else 128, if lead = 237 then 159 else 191), continuation]
  else if lead < 245 then
    -- no overlong four-octet form, nothing past the last code point
    some [(if lead = 240 then 144 else 128, if lead = 244 then 143 else 191), continuation,
      continuation]
  else none

/-- Reads the text with the ranges still owed. -/
def settles : List Range → List UInt8 → Bool
  | [], [] => true
  | _ :: _, [] => false
  | [], b :: rest =>
    match demands b.toNat with
    | some owed => settles owed rest
    | none => false
  | range :: owed, b :: rest => range.1 ≤ b.toNat && b.toNat ≤ range.2 && settles owed rest

def wellFormed (text : List UInt8) : Bool := settles [] text

abbrev Ascii (text : List UInt8) : Prop := ∀ b ∈ text, b.toNat < 128

theorem demands_ascii {lead : ℕ} (ascii : lead < 128) : demands lead = some [] := if_pos ascii

variable {owed : List Range} {text : List UInt8}

theorem demands_high {lead : ℕ} (found : demands lead = some owed) :
    ∀ range ∈ owed, 128 ≤ range.1 := by
  unfold demands continuation at found
  split_ifs at found <;> cases found <;> simp

theorem settles_append {xs : List UInt8} (whole : settles owed xs = true) (ys : List UInt8) :
    settles owed (xs ++ ys) = settles [] ys := by
  induction xs generalizing owed with
  | nil =>
    cases owed with
    | nil => rfl
    | cons range owed => cases whole
  | cons b xs ih =>
    cases owed with
    | nil =>
      simp only [List.cons_append, settles] at whole ⊢
      cases found : demands b.toNat with
      | none => rw [found] at whole; cases whole
      | some owed => rw [found] at whole; exact ih whole
    | cons range owed =>
      simp only [List.cons_append, settles, Bool.and_eq_true] at whole ⊢
      simp only [whole.1.1, whole.1.2, ih whole.2, Bool.true_and]

theorem wellFormed_append {xs ys : List UInt8} (left : wellFormed xs = true)
    (right : wellFormed ys = true) : wellFormed (xs ++ ys) = true :=
  (settles_append left ys).trans right

theorem wellFormed_ascii (ascii : Ascii text) : wellFormed text = true := by
  induction text with
  | nil => rfl
  | cons b rest ih =>
    rw [wellFormed, settles, demands_ascii (ascii b List.mem_cons_self)]
    exact ih fun c inside => ascii c (List.mem_cons_of_mem _ inside)

section Replacing

variable {f : UInt8 → List UInt8} (ascii : ∀ b : UInt8, b.toNat < 128 → Ascii (f b))
  (other : ∀ b : UInt8, ¬b.toNat < 128 → f b = [b])
include ascii other

/-- Inside a character nothing is replaced, for an ASCII octet cannot stand there. -/
theorem settles_flatMap (high : ∀ range ∈ owed, 128 ≤ range.1) (whole : settles owed text = true) :
    settles owed (text.flatMap f) = true := by
  induction text generalizing owed with
  | nil => exact whole
  | cons b rest ih =>
    rw [List.flatMap_cons]
    cases owed with
    | cons range owed =>
      simp only [settles, Bool.and_eq_true, decide_eq_true_eq] at whole
      have least := high range List.mem_cons_self
      rw [other b (by omega), List.singleton_append, settles]
      simp only [whole.1.1, whole.1.2, decide_true, Bool.true_and]
      exact ih (fun r inside => high r (List.mem_cons_of_mem _ inside)) whole.2
    | nil =>
      rw [settles] at whole
      by_cases plain : b.toNat < 128
      · rw [demands_ascii plain] at whole
        rw [settles_append (wellFormed_ascii (ascii b plain))]
        exact ih nofun whole
      · rw [other b plain, List.singleton_append, settles]
        cases found : demands b.toNat with
        | none => rw [found] at whole; cases whole
        | some owed =>
          rw [found] at whole
          exact ih (demands_high found) whole

/-- Replacing ASCII octets by ASCII texts keeps a text well formed. -/
theorem wellFormed_flatMap (whole : wellFormed text = true) : wellFormed (text.flatMap f) = true :=
  settles_flatMap ascii other nofun whole

end Replacing

end TerrapiVault.Utf8
