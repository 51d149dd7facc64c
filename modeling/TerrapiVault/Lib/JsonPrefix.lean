import TerrapiVault.Lib.Json

/-! A reader that stops before the end of a text does the same when the text goes on. A
complete object is therefore no strict prefix of another one. -/
namespace TerrapiVault.Json

/-- `later` does on a longer text what `skip` does, where something is left over. -/
def Extends (skip later : Text → Option Text) : Prop :=
  ∀ text rest more, rest ≠ [] → skip text = some rest → later (text ++ more) = some (rest ++ more)

variable {text rest : Text} {fuel : ℕ}

theorem dropWhile_more {p : UInt8 → Bool} (more : Text) (left : text.dropWhile p ≠ []) :
    (text ++ more).dropWhile p = text.dropWhile p ++ more := by
  induction text with
  | nil => exact absurd rfl left
  | cons b text ih =>
    by_cases skipped : p b = true
    · simp only [List.cons_append, List.dropWhile_cons, skipped, if_true] at left ⊢
      exact ih left
    · simp [skipped]

theorem skipSpace_more (more : Text) (left : skipSpace text ≠ []) :
    skipSpace (text ++ more) = skipSpace text ++ more :=
  dropWhile_more more left

theorem skipSpace_left (left : skipSpace text ≠ []) : text ≠ [] := by
  rintro rfl
  exact left rfl

theorem skipText_more {mode : Mode} (more : Text) (read : skipText mode text = some rest) :
    skipText mode (text ++ more) = some (rest ++ more) := by
  induction mode, text using skipText.induct generalizing rest <;> simp_all [skipText]

theorem expect_more {word : Text} (more : Text) (read : expect word text = some rest) :
    expect word (text ++ more) = some (rest ++ more) := by
  unfold expect at read ⊢
  split at read
  · rename_i same
    have long : word.length ≤ text.length := by
      have sized := congrArg List.length same
      rw [List.length_take] at sized
      omega
    rw [List.take_append_of_le_length long, if_pos same, List.drop_append_of_le_length long,
      ← Option.some.inj read]
  · cases read

theorem consumed_more (text rest more : Text) :
    consumed (text ++ more) (rest ++ more) = consumed text rest := by
  have sized : (text ++ more).length - (rest ++ more).length = text.length - rest.length := by
    simp only [List.length_append]
    omega
  rw [consumed, sized, List.take_append_of_le_length (Nat.sub_le _ _), consumed]

theorem skipSome_more : Extends skipSome skipSome := by
  intro text rest more left read
  cases text with
  | nil => cases read
  | cons b text =>
    simp only [skipSome] at read
    split at read
    · rename_i digit
      obtain rfl := Option.some.inj read
      rw [List.cons_append, skipSome, if_pos digit, skipDigits, dropWhile_more more left]
      rfl
    · cases read

theorem skipInteger_more : Extends skipInteger skipInteger := by
  intro text rest more left read
  cases text with
  | nil => cases read
  | cons b text =>
    simp only [skipInteger] at read
    split at read
    · rename_i zero
      obtain rfl := Option.some.inj read
      rw [List.cons_append, skipInteger, if_pos zero]
    · rename_i other
      rw [List.cons_append, skipInteger, if_neg other]
      exact skipSome_more (b :: text) rest more left read

theorem skipFraction_more : Extends skipFraction skipFraction := by
  intro text rest more left read
  cases text with
  | nil => exact absurd (Option.some.inj read).symm left
  | cons b text =>
    simp only [skipFraction] at read
    split at read
    · rename_i point
      rw [List.cons_append, skipFraction, if_pos point]
      exact skipSome_more text rest more left read
    · rename_i other
      obtain rfl := Option.some.inj read
      rw [List.cons_append, skipFraction, if_neg other]

theorem skipSign_more (more : Text) (some' : text ≠ []) :
    skipSign (text ++ more) = skipSign text ++ more := by
  cases text with
  | nil => exact absurd rfl some'
  | cons b text =>
    simp only [List.cons_append, skipSign]
    split <;> rfl

theorem skipMinus_more (more : Text) (some' : text ≠ []) :
    skipMinus (text ++ more) = skipMinus text ++ more := by
  cases text with
  | nil => exact absurd rfl some'
  | cons b text =>
    simp only [List.cons_append, skipMinus]
    split <;> rfl

theorem skipExponent_more : Extends skipExponent skipExponent := by
  intro text rest more left read
  cases text with
  | nil => exact absurd (Option.some.inj read).symm left
  | cons b text =>
    simp only [skipExponent] at read
    split at read
    · rename_i exponent
      have some' : text ≠ [] := by
        rintro rfl
        cases read
      rw [List.cons_append, skipExponent, if_pos exponent, skipSign_more more some']
      exact skipSome_more _ rest more left read
    · rename_i other
      obtain rfl := Option.some.inj read
      rw [List.cons_append, skipExponent, if_neg other]

theorem skipNumber_more : Extends skipNumber skipNumber := by
  intro text rest more left read
  simp only [skipNumber, Option.bind_eq_bind, Option.bind_eq_some_iff] at read
  obtain ⟨afterInteger, integer, afterFraction, fraction, exponent⟩ := read
  have leftFraction : afterFraction ≠ [] := by
    rintro rfl
    exact left (Option.some.inj exponent).symm
  have leftInteger : afterInteger ≠ [] := by
    rintro rfl
    exact leftFraction (Option.some.inj fraction).symm
  have some' : text ≠ [] := by
    rintro rfl
    cases integer
  simp only [skipNumber, Option.bind_eq_bind, skipMinus_more more some',
    skipInteger_more _ _ more leftInteger integer, skipFraction_more _ _ more leftFraction fraction,
    skipExponent_more _ _ more left exponent, Option.bind_some]

/-- An item that is read with something left over is read from a longer text as well. -/
def ItemExtends {α : Type} (item later : Text → Option (α × Text)) : Prop :=
  ∀ text first rest more, rest ≠ [] → item text = some (first, rest) →
    later (text ++ more) = some (first, rest ++ more)

section Lists

variable {α : Type} {item later : Text → Option (α × Text)} (extend : ItemExtends item later)
  (empty : item [] = none)
include extend empty

theorem listed_more {close : UInt8} : ∀ {fuel' : ℕ}, fuel ≤ fuel' →
    ∀ {text rest : Text} {read : List α} (more : Text),
    listed item close fuel text = some (read, rest) →
      listed later close fuel' (text ++ more) = some (read, rest ++ more) := by
  induction fuel with
  | zero => exact fun _ _ _ _ _ done => nomatch done
  | succ fuel ih =>
    intro fuel' enough text rest read more done
    obtain ⟨fuel', rfl⟩ : ∃ n, fuel' = n + 1 := ⟨fuel' - 1, by omega⟩
    simp only [listed, Option.bind_eq_bind, Option.bind_eq_some_iff] at done
    obtain ⟨⟨first, afterItem⟩, one, last⟩ := done
    have left : skipSpace afterItem ≠ [] := by
      intro none
      simp [none] at last
    simp only [listed, Option.bind_eq_bind, Option.bind_some,
      extend _ _ _ more (skipSpace_left left) one, skipSpace_more more left]
    cases after : skipSpace afterItem with
    | nil => exact absurd after left
    | cons b tail =>
      simp only [after] at last
      simp only [List.cons_append] at last ⊢
      split_ifs at last ⊢ with closed comma
      · obtain ⟨rfl, rfl⟩ := Prod.mk.inj (Option.some.inj last)
        rfl
      · simp only [Option.bind_eq_some_iff] at last
        obtain ⟨⟨others, tail'⟩, next, done⟩ := last
        obtain ⟨rfl, rfl⟩ := Prod.mk.inj (Option.some.inj done)
        have leftComma : skipSpace tail ≠ [] := by
          intro none
          rw [none] at next
          cases fuel <;> simp [listed, empty] at next
        rw [skipSpace_more more leftComma, ih (by omega) more next]
        rfl

theorem listBody_more {close : UInt8} {read : List α} (more : Text)
    (done : listBody item close text = some (read, rest)) :
    listBody later close (text ++ more) = some (read, rest ++ more) := by
  have left : skipSpace text ≠ [] := by
    intro none
    rw [listBody, none] at done
    cases done
  have enough : text.length ≤ (text ++ more).length := by simp
  rw [listBody, skipSpace_more more left]
  rw [listBody] at done
  cases first : skipSpace text with
  | nil => exact absurd first left
  | cons b tail =>
    rw [first] at done
    simp only [List.cons_append] at done ⊢
    split_ifs at done ⊢ with closed
    · obtain ⟨rfl, rfl⟩ := Prod.mk.inj (Option.some.inj done)
      rfl
    · exact listed_more extend empty enough more done

end Lists

section Containers

variable {skip later : Text → Option Text} (extend : Extends skip later) (empty : skip [] = none)
include extend empty

theorem member_more : ItemExtends (member skip) (member later) := by
  intro text first rest more left done
  simp only [member, Option.bind_eq_bind, Option.bind_eq_some_iff] at done
  obtain ⟨opened, quote, afterKey, key, afterColon, colon, afterValue, value, last⟩ := done
  obtain ⟨rfl, rfl⟩ := Prod.mk.inj (Option.some.inj last)
  have leftKey : skipSpace afterKey ≠ [] := by
    intro none
    rw [none] at colon
    cases colon
  have leftColon : skipSpace afterColon ≠ [] := by
    intro none
    rw [none, empty] at value
    cases value
  simp only [member, Option.bind_eq_bind, expect_more more quote, Option.bind_some,
    skipText_more more key, skipSpace_more more leftKey, expect_more more colon,
    skipSpace_more more leftColon, extend _ _ more left value, consumed_more]

theorem objectBody_more {read : List (Text × Text)} (more : Text)
    (done : objectBody skip text = some (read, rest)) :
    objectBody later (text ++ more) = some (read, rest ++ more) :=
  listBody_more (member_more extend empty) rfl more done

theorem arrayBody_more {read : List Text} (more : Text)
    (done : arrayBody skip text = some (read, rest)) :
    arrayBody later (text ++ more) = some (read, rest ++ more) := by
  refine listBody_more (fun text first rest more left one => ?_) (by rw [element, empty]; rfl) more done
  simp only [element, Option.map_eq_some_iff] at one ⊢
  obtain ⟨after, read, same⟩ := one
  obtain ⟨rfl, rfl⟩ := Prod.mk.inj same
  exact ⟨_, extend _ _ more left read, by rw [consumed_more]⟩

end Containers

theorem skipValue_nil (fuel : ℕ) : skipValue fuel [] = none := by
  cases fuel <;> rfl

theorem skipValue_more : ∀ {fuel' : ℕ}, fuel ≤ fuel' →
    Extends (skipValue fuel) (skipValue fuel') := by
  induction fuel with
  | zero => exact fun _ _ _ _ _ read => nomatch read
  | succ fuel ih =>
    intro fuel' enough text rest more left read
    obtain ⟨fuel', rfl⟩ : ∃ n, fuel' = n + 1 := ⟨fuel' - 1, by omega⟩
    have extend : Extends (skipValue fuel) (skipValue fuel') := ih (by omega)
    cases text with
    | nil => cases read
    | cons b text =>
      simp only [skipValue, List.cons_append] at read ⊢
      split_ifs at read ⊢
      · exact skipText_more more read
      · simp only [Option.map_eq_some_iff] at read ⊢
        obtain ⟨⟨found, rest⟩, body, rfl⟩ := read
        exact ⟨_, objectBody_more extend (skipValue_nil fuel) more body, rfl⟩
      · simp only [Option.map_eq_some_iff] at read ⊢
        obtain ⟨⟨found, rest⟩, body, rfl⟩ := read
        exact ⟨_, arrayBody_more extend (skipValue_nil fuel) more body, rfl⟩
      · exact expect_more more read
      · exact expect_more more read
      · exact expect_more more read
      · exact skipNumber_more (b :: text) rest more left read

end TerrapiVault.Json
