import TerrapiVault.Lib.Utf8
import Mathlib.Data.Nat.Digits.Defs
import Mathlib.Data.Nat.Digits.Lemmas

/-! JSON texts as octets: the compact form of a tree, and a reader that finds where a value
ends. The reader takes any JSON; what the writer makes is read back whole. -/
namespace TerrapiVault.Json

abbrev Text : Type := List UInt8

mutual

inductive Value where
  | null
  | number (n : ℕ)
  | text (s : Text)
  | object (members : Members)

inductive Members where
  | nil
  | cons (key : Text) (value : Value) (rest : Members)

end

def hexDigit (d : ℕ) : UInt8 := if d < 10 then UInt8.ofNat (48 + d) else UInt8.ofNat (87 + d)

/-- The letter of a two-octet escape. -/
def shortEscape (b : UInt8) : Option UInt8 :=
  if b = 34 then some 34
  else if b = 92 then some 92
  else if b = 8 then some 98
  else if b = 9 then some 116
  else if b = 10 then some 110
  else if b = 12 then some 102
  else if b = 13 then some 114
  else none

def escape (b : UInt8) : Text :=
  match shortEscape b with
  | some letter => [92, letter]
  | none =>
    if b.toNat < 32 then [92, 117, 48, 48, hexDigit (b.toNat / 16), hexDigit (b.toNat % 16)] else [b]

def escaped (s : Text) : Text := s.flatMap escape

def quoted (s : Text) : Text := 34 :: (escaped s ++ [34])

def decimal (n : ℕ) : Text :=
  if n = 0 then [48] else (Nat.digits 10 n).reverse.map fun d => UInt8.ofNat (48 + d)

mutual

def Value.encode : Value → Text
  | .null => [110, 117, 108, 108]
  | .number n => decimal n
  | .text s => quoted s
  | .object members => 123 :: members.encode

def Members.encode : Members → Text
  | .nil => [125]
  | .cons key value .nil => quoted key ++ 58 :: (value.encode ++ [125])
  | .cons key value rest => quoted key ++ 58 :: (value.encode ++ 44 :: rest.encode)

end

def isSpace (b : UInt8) : Bool := b = 32 || b = 9 || b = 10 || b = 13

def skipSpace (text : Text) : Text := text.dropWhile isSpace

def isDigit (b : UInt8) : Bool := 48 ≤ b.toNat && b.toNat ≤ 57

def hexValue (b : UInt8) : Option ℕ :=
  if isDigit b then some (b.toNat - 48)
  else if 97 ≤ b.toNat ∧ b.toNat ≤ 102 then some (b.toNat - 87)
  else if 65 ≤ b.toNat ∧ b.toNat ≤ 70 then some (b.toNat - 55)
  else none

/-- What the letter of a two-octet escape stands for. -/
def shortValue (b : UInt8) : Option UInt8 :=
  if b = 34 then some 34
  else if b = 92 then some 92
  else if b = 47 then some 47
  else if b = 98 then some 8
  else if b = 102 then some 12
  else if b = 110 then some 10
  else if b = 114 then some 13
  else if b = 116 then some 9
  else none

inductive Mode where
  | plain
  | escape
  | hex (left : ℕ)

/-- The rest after the closing quote. -/
def skipText : Mode → Text → Option Text
  | _, [] => none
  | .plain, b :: rest =>
    if b = 34 then some rest
    else if b = 92 then skipText .escape rest
    else if b.toNat < 32 then none
    else skipText .plain rest
  | .escape, b :: rest =>
    if b = 117 then skipText (.hex 3) rest
    else if (shortValue b).isSome then skipText .plain rest
    else none
  | .hex left, b :: rest =>
    if (hexValue b).isSome then
      match left with
      | 0 => skipText .plain rest
      | left + 1 => skipText (.hex left) rest
    else none

def skipDigits (text : Text) : Text := text.dropWhile isDigit

def skipSome (text : Text) : Option Text :=
  match text with
  | b :: rest => if isDigit b then some (skipDigits rest) else none
  | [] => none

def skipInteger (text : Text) : Option Text :=
  match text with
  | b :: rest => if b = 48 then some rest else skipSome (b :: rest)
  | [] => none

def skipFraction (text : Text) : Option Text :=
  match text with
  | b :: rest => if b = 46 then skipSome rest else some (b :: rest)
  | [] => some []

def skipSign (text : Text) : Text :=
  match text with
  | b :: rest => if b = 43 ∨ b = 45 then rest else b :: rest
  | [] => []

def skipExponent (text : Text) : Option Text :=
  match text with
  | b :: rest => if b = 101 ∨ b = 69 then skipSome (skipSign rest) else some (b :: rest)
  | [] => some []

def skipMinus (text : Text) : Text :=
  match text with
  | b :: rest => if b = 45 then rest else b :: rest
  | [] => []

def skipNumber (text : Text) : Option Text := do
  let rest ← skipInteger (skipMinus text)
  let rest ← skipFraction rest
  skipExponent rest

def expect (word text : Text) : Option Text :=
  if text.take word.length = word then some (text.drop word.length) else none

/-- What stands before the rest. -/
def consumed (text rest : Text) : Text := text.take (text.length - rest.length)

/-- Items with commas between them, up to the closing byte. -/
def listed {α : Type} (item : Text → Option (α × Text)) (close : UInt8) :
    ℕ → Text → Option (List α × Text)
  | 0, _ => none
  | fuel + 1, text => do
    let (first, rest) ← item text
    match skipSpace rest with
    | b :: rest =>
      if b = close then some ([first], rest)
      else if b = 44 then do
        let (more, rest) ← listed item close fuel (skipSpace rest)
        some (first :: more, rest)
      else none
    | [] => none

/-- The items after an opening byte; there may be none. -/
def listBody {α : Type} (item : Text → Option (α × Text)) (close : UInt8) (text : Text) :
    Option (List α × Text) :=
  match skipSpace text with
  | b :: rest => if b = close then some ([], rest) else listed item close text.length (b :: rest)
  | [] => none

/-- A member of an object, its key and value as they stand. -/
def member (skip : Text → Option Text) (text : Text) : Option ((Text × Text) × Text) := do
  let text ← expect [34] text
  let rest ← skipText .plain text
  let key := (consumed text rest).dropLast
  let text ← expect [58] (skipSpace rest)
  let text := skipSpace text
  let rest ← skip text
  some ((key, consumed text rest), rest)

/-- An element of an array as it stands. -/
def element (skip : Text → Option Text) (text : Text) : Option (Text × Text) :=
  (skip text).map fun rest => (consumed text rest, rest)

def objectBody (skip : Text → Option Text) (text : Text) : Option (List (Text × Text) × Text) :=
  listBody (member skip) 125 text

def arrayBody (skip : Text → Option Text) (text : Text) : Option (List Text × Text) :=
  listBody (element skip) 93 text

/-- The rest after one value; the fuel bounds its depth. -/
def skipValue : ℕ → Text → Option Text
  | 0, _ => none
  | _ + 1, [] => none
  | fuel + 1, b :: rest =>
    if b = 34 then skipText .plain rest
    else if b = 123 then (objectBody (skipValue fuel) rest).map Prod.snd
    else if b = 91 then (arrayBody (skipValue fuel) rest).map Prod.snd
    else if b = 110 then expect [117, 108, 108] rest
    else if b = 116 then expect [114, 117, 101] rest
    else if b = 102 then expect [97, 108, 115, 101] rest
    else skipNumber (b :: rest)

theorem hexValue_hexDigit {d : ℕ} (small : d < 16) : hexValue (hexDigit d) = some d := by
  interval_cases d <;> rfl

theorem hexValue_control {b : UInt8} (control : b.toNat < 32) :
    hexValue (hexDigit (b.toNat / 16)) = some (b.toNat / 16) ∧
      hexValue (hexDigit (b.toNat % 16)) = some (b.toNat % 16) ∧ hexValue 48 = some 0 :=
  ⟨hexValue_hexDigit (by omega), hexValue_hexDigit (by omega), rfl⟩

theorem shortEscape_cases {b letter : UInt8} (short : shortEscape b = some letter) :
    letter ≠ 117 ∧ shortValue letter = some b := by
  unfold shortEscape at short
  split_ifs at short <;> cases short <;> subst_vars <;> decide

theorem shortEscape_none {b : UInt8} (long : shortEscape b = none) : b ≠ 34 ∧ b ≠ 92 := by
  constructor <;> rintro rfl <;> cases long

theorem skipText_escape (b : UInt8) (rest : Text) :
    skipText .plain (escape b ++ rest) = skipText .plain rest := by
  unfold escape
  cases short : shortEscape b with
  | some letter =>
    obtain ⟨notHex, known⟩ := shortEscape_cases short
    simp [skipText, notHex, known]
  | none =>
    obtain ⟨notQuote, notSlash⟩ := shortEscape_none short
    by_cases control : b.toNat < 32
    · simp [control, skipText, hexValue_control control]
    · simp [control, skipText, notQuote, notSlash]

theorem skipText_escaped (s rest : Text) :
    skipText .plain (escaped s ++ 34 :: rest) = some rest := by
  induction s with
  | nil => simp [escaped, skipText]
  | cons b s ih =>
    rw [escaped, List.flatMap_cons, List.append_assoc, skipText_escape]
    exact ih

theorem decimal_digits (n : ℕ) : ∀ b ∈ decimal n, isDigit b = true := by
  intro b inside
  unfold decimal at inside
  split at inside
  · obtain rfl := List.mem_singleton.mp inside
    rfl
  · obtain ⟨d, there, rfl⟩ := List.mem_map.mp inside
    have small : d < 10 := Nat.digits_lt_base (by decide) (List.mem_reverse.mp there)
    interval_cases d <;> rfl

/-- What may follow a number. -/
def Stop (rest : Text) : Prop :=
  ∀ b ∈ rest.head?, isDigit b = false ∧ b ≠ 46 ∧ b ≠ 101 ∧ b ≠ 69

theorem skipDigits_append {digits rest : Text} (all : ∀ b ∈ digits, isDigit b = true)
    (stop : Stop rest) : skipDigits (digits ++ rest) = rest := by
  induction digits with
  | nil =>
    cases rest with
    | nil => rfl
    | cons b rest => simp [skipDigits, (stop b rfl).1]
  | cons b digits ih =>
    rw [List.cons_append, skipDigits, List.dropWhile_cons_of_pos (all b List.mem_cons_self)]
    exact ih fun c inside => all c (List.mem_cons_of_mem _ inside)

theorem decimal_ne_nil (n : ℕ) : decimal n ≠ [] := by
  unfold decimal
  split
  · nofun
  · rename_i positive
    simpa using Nat.digits_ne_nil_iff_ne_zero.mpr positive

theorem decimal_head {n : ℕ} (positive : n ≠ 0) {b : UInt8} {tail : Text}
    (split : decimal n = b :: tail) : b ≠ 48 := by
  have nonempty : Nat.digits 10 n ≠ [] := Nat.digits_ne_nil_iff_ne_zero.mpr positive
  have last := Nat.getLast_digit_ne_zero 10 positive
  have small : (Nat.digits 10 n).getLast nonempty < 10 :=
    Nat.digits_lt_base (by decide) (List.getLast_mem nonempty)
  have head : b = UInt8.ofNat (48 + (Nat.digits 10 n).getLast nonempty) := by
    rw [decimal, if_neg positive, ← List.dropLast_append_getLast nonempty, List.reverse_append,
      List.reverse_singleton, List.singleton_append, List.map_cons] at split
    simpa using (List.cons.inj split).1.symm
  rw [head]
  generalize (Nat.digits 10 n).getLast nonempty = d at last small
  interval_cases d
  · exact absurd rfl last
  all_goals decide

theorem digit_ne {b c : UInt8} (digit : isDigit b = true) (other : isDigit c = false) : b ≠ c := by
  rintro rfl
  rw [digit] at other
  cases other

theorem skipInteger_decimal {n : ℕ} {rest : Text} (stop : Stop rest) :
    skipInteger (skipMinus (decimal n ++ rest)) = some rest := by
  by_cases zero : n = 0
  · subst zero
    rfl
  have all := decimal_digits n
  cases split : decimal n with
  | nil => exact absurd split (decimal_ne_nil n)
  | cons b tail =>
    rw [split] at all
    have digit := all b List.mem_cons_self
    have notMinus : b ≠ 45 := digit_ne digit rfl
    have skipped : skipDigits (tail ++ rest) = rest :=
      skipDigits_append (fun c inside => all c (List.mem_cons_of_mem _ inside)) stop
    simp [skipMinus, notMinus, skipInteger, decimal_head zero split, skipSome, digit, skipped]

theorem skipNumber_decimal {n : ℕ} {rest : Text} (stop : Stop rest) :
    skipNumber (decimal n ++ rest) = some rest := by
  rw [skipNumber, skipInteger_decimal stop]
  cases rest with
  | nil => rfl
  | cons b rest =>
    obtain ⟨_, notPoint, lower, upper⟩ := stop b rfl
    simp [skipFraction, skipExponent, notPoint, lower, upper]

/-- The value of an unsigned integer as it stands. -/
def natural (text : Text) : Option ℕ :=
  if text.all isDigit && (text.length = 1 || text.head? ≠ some 48) && text ≠ [] then
    some (text.foldl (fun n b => 10 * n + (b.toNat - 48)) 0)
  else none

theorem natural_decimal (n : ℕ) : natural (decimal n) = some n := by
  by_cases zero : n = 0
  · subst zero
    rfl
  have all : (decimal n).all isDigit = true := List.all_eq_true.mpr (decimal_digits n)
  have head : (decimal n).head? ≠ some 48 := by
    cases split : decimal n with
    | nil => nofun
    | cons b tail => simpa using decimal_head zero split
  have value : (decimal n).foldl (fun n b => 10 * n + (b.toNat - 48)) 0 = n := by
    have digits : ∀ d ∈ Nat.digits 10 n, (UInt8.ofNat (48 + d)).toNat - 48 = d := by
      intro d inside
      have small : d < 10 := Nat.digits_lt_base (by decide) inside
      interval_cases d <;> rfl
    rw [decimal, if_neg zero, List.foldl_map, List.foldl_reverse]
    calc (Nat.digits 10 n).foldr (fun d m => 10 * m + ((UInt8.ofNat (48 + d)).toNat - 48)) 0
        = (Nat.digits 10 n).foldr (fun d m => d + 10 * m) 0 := by
          refine List.foldr_ext _ _ 0 fun d inside m => ?_
          rw [digits d inside, Nat.add_comm]
      _ = Nat.ofDigits 10 (Nat.digits 10 n) := (Nat.ofDigits_eq_foldr 10 _).symm
      _ = n := Nat.ofDigits_digits 10 n
  simp [natural, all, head, decimal_ne_nil, value]

mutual

def Value.depth : Value → ℕ
  | .object members => members.depth + 1
  | _ => 1

def Members.depth : Members → ℕ
  | .nil => 0
  | .cons _ value rest => max value.depth rest.depth

end

mutual

theorem Value.depth_le (value : Value) : value.depth ≤ value.encode.length := by
  match value with
  | .null =>
    rw [Value.encode, Value.depth]
    · decide
    · nofun
  | .number n =>
    rw [Value.encode, Value.depth]
    · exact List.length_pos_iff.mpr (decimal_ne_nil n)
    · nofun
  | .text s =>
    rw [Value.encode, Value.depth, quoted]
    · simp
    · nofun
  | .object ms =>
    have inner := ms.depth_le
    rw [Value.encode, Value.depth, List.length_cons]
    omega

theorem Members.depth_le (ms : Members) : ms.depth ≤ ms.encode.length := by
  match ms with
  | .nil => exact Nat.zero_le _
  | .cons key value .nil =>
    have inner := value.depth_le
    rw [Members.encode, Members.depth, Members.depth]
    simp only [List.length_append, List.length_cons]
    omega
  | .cons key value (.cons key' value' rest) =>
    have inner := value.depth_le
    have more := (Members.cons key' value' rest).depth_le
    rw [Members.encode, Members.depth]
    · simp only [List.length_append, List.length_cons]
      omega
    · nofun

end

/-- The members as they stand in the text. -/
def Members.raw : Members → List (Text × Text)
  | .nil => []
  | .cons key value rest => (escaped key, value.encode) :: rest.raw

theorem consumed_append (first rest : Text) : consumed (first ++ rest) rest = first := by
  simp [consumed]

theorem skipSpace_cons {b : UInt8} {rest : Text} (solid : isSpace b = false) :
    skipSpace (b :: rest) = b :: rest := by
  simp [skipSpace, solid]

theorem Value.encode_head (value : Value) :
    ∃ b rest, value.encode = b :: rest ∧ isSpace b = false := by
  cases value with
  | null => exact ⟨110, [117, 108, 108], by rw [Value.encode], rfl⟩
  | text s => exact ⟨34, escaped s ++ [34], by rw [Value.encode, quoted], rfl⟩
  | object members => exact ⟨123, members.encode, by rw [Value.encode], rfl⟩
  | number n =>
    rw [Value.encode]
    cases split : decimal n with
    | nil => exact absurd split (decimal_ne_nil n)
    | cons b rest =>
      have digit : isDigit b = true := decimal_digits n b (split ▸ List.mem_cons_self)
      refine ⟨b, rest, rfl, ?_⟩
      simp [isSpace, digit_ne digit (c := 32) rfl, digit_ne digit (c := 9) rfl,
        digit_ne digit (c := 10) rfl, digit_ne digit (c := 13) rfl]

theorem skipSpace_encode (value : Value) (rest : Text) :
    skipSpace (value.encode ++ rest) = value.encode ++ rest := by
  obtain ⟨b, tail, same, solid⟩ := value.encode_head
  rw [same, List.cons_append, skipSpace_cons solid]

theorem stop_of {b : UInt8} (rest : Text) (after : b = 44 ∨ b = 125) : Stop (b :: rest) := by
  intro c same
  obtain rfl : b = c := by simpa using same
  obtain rfl | rfl := after <;> decide

theorem member_encode {skip : Text → Option Text} {key tail : Text} {value : Value}
    (skips : skip (value.encode ++ tail) = some tail) :
    member skip (quoted key ++ 58 :: (value.encode ++ tail)) =
      some ((escaped key, value.encode), tail) := by
  have opened : expect [34] (quoted key ++ 58 :: (value.encode ++ tail)) =
      some (escaped key ++ 34 :: 58 :: (value.encode ++ tail)) := by
    simp [expect, quoted]
  have colon : expect [58] (skipSpace (58 :: (value.encode ++ tail))) = some (value.encode ++ tail) :=
    rfl
  have named : (consumed (escaped key ++ 34 :: 58 :: (value.encode ++ tail))
      (58 :: (value.encode ++ tail))).dropLast = escaped key := by
    rw [List.append_cons, consumed_append, List.dropLast_concat]
  simp only [member, opened, Option.bind_eq_bind, Option.bind_some, skipText_escaped, colon, named,
    skipSpace_encode, skips, consumed_append]

theorem Members.encode_cons (key : Text) (value : Value) (rest : Members) :
    ∃ tail, (Members.cons key value rest).encode = 34 :: tail := by
  cases rest with
  | nil => exact ⟨_, by rw [Members.encode, quoted]; rfl⟩
  | cons key' value' rest' =>
    exact ⟨_, by rw [Members.encode, quoted]; rfl; nofun⟩

theorem Members.raw_length (ms : Members) : ms.raw.length ≤ ms.encode.length := by
  match ms with
  | .nil => exact Nat.zero_le _
  | .cons key value .nil =>
    rw [Members.encode, Members.raw, Members.raw, quoted]
    simp
  | .cons key value (.cons key' value' rest) =>
    have shorter := Members.raw_length (.cons key' value' rest)
    rw [Members.raw, Members.encode, quoted]
    · simp only [List.length_cons, List.length_append]
      omega
    · nofun

mutual

theorem skipValue_encode (value : Value) {fuel : ℕ} {rest : Text} (deep : value.depth ≤ fuel)
    (stop : Stop rest) : skipValue fuel (value.encode ++ rest) = some rest := by
  match value, fuel, deep with
  | .null, fuel + 1, _ => rw [Value.encode]; simp [skipValue, expect]
  | .text s, fuel + 1, _ =>
    rw [Value.encode, quoted]
    simp only [List.cons_append, List.append_assoc, List.nil_append, skipValue, if_true]
    exact skipText_escaped s rest
  | .number n, fuel + 1, _ =>
    rw [Value.encode]
    cases split : decimal n with
    | nil => exact absurd split (decimal_ne_nil n)
    | cons b tail =>
      have digit : isDigit b = true := decimal_digits n b (split ▸ List.mem_cons_self)
      have skipped := skipNumber_decimal (n := n) stop
      rw [split, List.cons_append] at skipped
      simp [skipValue, digit_ne digit (c := 34) rfl, digit_ne digit (c := 123) rfl,
        digit_ne digit (c := 91) rfl, digit_ne digit (c := 110) rfl, digit_ne digit (c := 116) rfl,
        digit_ne digit (c := 102) rfl, skipped]
  | .object ms, fuel + 1, deep =>
    rw [Value.depth] at deep
    rw [Value.encode, List.cons_append, skipValue]
    simp only [show ¬((123 : UInt8) = 34) by decide, if_false, if_true]
    rw [objectBody_encode ms (by omega)]
    rfl

theorem objectBody_encode (ms : Members) {fuel : ℕ} {rest : Text} (deep : ms.depth ≤ fuel) :
    objectBody (skipValue fuel) (ms.encode ++ rest) = some (ms.raw, rest) := by
  match ms with
  | .nil => rfl
  | .cons key value more =>
    obtain ⟨tail, same⟩ := Members.encode_cons key value more
    have enough := (Members.cons key value more).raw_length
    have read : listed (member (skipValue fuel)) 125
        ((Members.cons key value more).encode ++ rest).length ((Members.cons key value more).encode ++ rest) =
        some ((Members.cons key value more).raw, rest) :=
      members_encode (.cons key value more) deep (by rw [List.length_append]; omega) nofun
    rw [same, List.cons_append] at read ⊢
    rw [objectBody, listBody, skipSpace_cons rfl]
    exact read

theorem members_encode (ms : Members) {fuel count : ℕ} {rest : Text} (deep : ms.depth ≤ fuel)
    (enough : ms.raw.length ≤ count) (some' : ms ≠ .nil) :
    listed (member (skipValue fuel)) 125 count (ms.encode ++ rest) = some (ms.raw, rest) := by
  match ms, count, enough with
  | .nil, _, _ => exact absurd rfl some'
  | .cons key value .nil, count + 1, _ =>
    rw [Members.depth] at deep
    have skips : skipValue fuel (value.encode ++ 125 :: rest) = some (125 :: rest) :=
      skipValue_encode value (by omega) (stop_of rest (.inr rfl))
    rw [Members.encode]
    simp only [List.append_assoc, List.cons_append, List.nil_append]
    rw [listed, member_encode skips]
    rfl
  | .cons key value (.cons key' value' more), count + 1, enough =>
    rw [Members.depth] at deep
    rw [Members.raw, List.length_cons] at enough
    have read : listed (member (skipValue fuel)) 125 count
        ((Members.cons key' value' more).encode ++ rest) = some ((Members.cons key' value' more).raw, rest) :=
      members_encode (.cons key' value' more) (by omega) (by omega) nofun
    have skips : skipValue fuel (value.encode ++ 44 :: ((Members.cons key' value' more).encode ++ rest)) =
        some (44 :: ((Members.cons key' value' more).encode ++ rest)) :=
      skipValue_encode value (by omega) (stop_of _ (.inl rfl))
    have solid : skipSpace ((Members.cons key' value' more).encode ++ rest) =
        (Members.cons key' value' more).encode ++ rest := by
      obtain ⟨tail, same⟩ := Members.encode_cons key' value' more
      rw [same, List.cons_append, skipSpace_cons rfl]
    have split : (Members.cons key value (.cons key' value' more)).encode ++ rest =
        quoted key ++ 58 :: (value.encode ++ 44 :: ((Members.cons key' value' more).encode ++ rest)) := by
      rw [Members.encode]
      · simp only [List.append_assoc, List.cons_append]
      · nofun
    rw [split, listed, member_encode skips]
    simp only [Option.bind_eq_bind, Option.bind_some, skipSpace_cons (b := 44) rfl,
      show ¬((44 : UInt8) = 125) by decide, if_false, if_true, solid, read]
    rfl

end

/-- The octets of a code point. -/
def codePoint (n : ℕ) : Text :=
  if n < 128 then [UInt8.ofNat n]
  else if n < 2048 then [UInt8.ofNat (192 + n / 64), UInt8.ofNat (128 + n % 64)]
  else if n < 65536 then
    [UInt8.ofNat (224 + n / 4096), UInt8.ofNat (128 + n / 64 % 64), UInt8.ofNat (128 + n % 64)]
  else
    [UInt8.ofNat (240 + n / 262144), UInt8.ofNat (128 + n / 4096 % 64),
      UInt8.ofNat (128 + n / 64 % 64), UInt8.ofNat (128 + n % 64)]

/-- `hex` has read `count` digits of a code unit, after a leading surrogate if there is one;
`slash` and `letter` wait for the escape of the trailing surrogate. -/
inductive Reading where
  | plain
  | escape
  | hex (count value : ℕ) (leading : Option ℕ)
  | slash (leading : ℕ)
  | letter (leading : ℕ)

/-- What a code unit gives, and how to go on. -/
def codeUnit (unit : ℕ) : Option ℕ → Option (Text × Reading)
  | none =>
    if 0xD800 ≤ unit ∧ unit < 0xDC00 then some ([], .slash unit)
    else if 0xDC00 ≤ unit ∧ unit < 0xE000 then none
    else some (codePoint unit, .plain)
  | some leading =>
    if 0xDC00 ≤ unit ∧ unit < 0xE000 then
      some (codePoint (0x10000 + (leading - 0xD800) * 1024 + (unit - 0xDC00)), .plain)
    else none

/-- The octets that an escaped text stands for. -/
def unescape : Reading → Text → Option Text
  | .plain, [] => some []
  | .plain, b :: rest =>
    if b = 92 then unescape .escape rest else (unescape .plain rest).map (b :: ·)
  | .escape, b :: rest =>
    if b = 117 then unescape (.hex 0 0 none) rest
    else match shortValue b with
      | some c => (unescape .plain rest).map (c :: ·)
      | none => none
  | .hex count value leading, b :: rest =>
    match hexValue b with
    | none => none
    | some d =>
      if count < 3 then unescape (.hex (count + 1) (16 * value + d) leading) rest
      else match codeUnit (16 * value + d) leading with
        | some (octets, next) => (unescape next rest).map (octets ++ ·)
        | none => none
  | .slash leading, b :: rest => if b = 92 then unescape (.letter leading) rest else none
  | .letter leading, b :: rest => if b = 117 then unescape (.hex 0 0 (some leading)) rest else none
  | _, [] => none

theorem unescape_escape (b : UInt8) (rest : Text) :
    unescape .plain (escape b ++ rest) = (unescape .plain rest).map (b :: ·) := by
  unfold escape
  cases short : shortEscape b with
  | some letter =>
    obtain ⟨notHex, known⟩ := shortEscape_cases short
    simp [unescape, notHex, known]
  | none =>
    obtain ⟨_, notSlash⟩ := shortEscape_none short
    by_cases control : b.toNat < 32
    · have whole : 16 * (b.toNat / 16) + b.toNat % 16 = b.toNat := Nat.div_add_mod _ _
      have unit : codeUnit b.toNat none = some ([b], .plain) := by
        rw [codeUnit, if_neg (by omega), if_neg (by omega), codePoint, if_pos (by omega)]
        simp
      simp [control, unescape, hexValue_control control, whole, unit]
    · simp [control, unescape, notSlash]

theorem unescape_escaped (s : Text) : unescape .plain (escaped s) = some s := by
  induction s with
  | nil => rfl
  | cons b s ih =>
    rw [escaped, List.flatMap_cons, unescape_escape]
    rw [escaped] at ih
    rw [ih]
    rfl

theorem hexDigit_plain {d : ℕ} (small : d < 16) : 32 ≤ (hexDigit d).toNat ∧ (hexDigit d).toNat < 128 := by
  interval_cases d <;> decide

theorem shortEscape_plain {b letter : UInt8} (short : shortEscape b = some letter) :
    32 ≤ letter.toNat ∧ letter.toNat < 128 ∧ b.toNat < 128 := by
  unfold shortEscape at short
  split_ifs at short <;> cases short <;> subst_vars <;> decide

theorem escape_plain {b c : UInt8} (inside : c ∈ escape b) :
    32 ≤ c.toNat ∧ (b.toNat < 128 → c.toNat < 128) := by
  unfold escape at inside
  cases short : shortEscape b with
  | some letter =>
    obtain ⟨low, high, _⟩ := shortEscape_plain short
    rw [short] at inside
    simp only [List.mem_cons, List.not_mem_nil, or_false] at inside
    obtain rfl | rfl := inside
    · exact ⟨by decide, fun _ => by decide⟩
    · exact ⟨low, fun _ => high⟩
  | none =>
    rw [short] at inside
    by_cases control : b.toNat < 32
    · have high := hexDigit_plain (d := b.toNat / 16) (by omega)
      have low := hexDigit_plain (d := b.toNat % 16) (by omega)
      simp only [control, if_true, List.mem_cons, List.not_mem_nil, or_false] at inside
      obtain rfl | rfl | rfl | rfl | rfl | rfl := inside
      · exact ⟨by decide, fun _ => by decide⟩
      · exact ⟨by decide, fun _ => by decide⟩
      · exact ⟨by decide, fun _ => by decide⟩
      · exact ⟨by decide, fun _ => by decide⟩
      · exact ⟨high.1, fun _ => high.2⟩
      · exact ⟨low.1, fun _ => low.2⟩
    · simp only [control, if_false, List.mem_singleton] at inside
      subst inside
      exact ⟨by omega, fun ascii => ascii⟩

theorem escape_other {b : UInt8} (other : ¬b.toNat < 128) : escape b = [b] := by
  unfold escape
  cases short : shortEscape b with
  | some letter => exact absurd (shortEscape_plain short).2.2 other
  | none => simp only [show ¬b.toNat < 32 by omega, if_false]

theorem quoted_plain {s : Text} {c : UInt8} (inside : c ∈ quoted s) : 32 ≤ c.toNat := by
  simp only [quoted, escaped, List.mem_cons, List.mem_append, List.mem_flatMap, List.not_mem_nil,
    or_false] at inside
  obtain rfl | ⟨b, _, there⟩ | rfl := inside
  · decide
  · exact (escape_plain there).1
  · decide

theorem quoted_wellFormed {s : Text} (whole : Utf8.wellFormed s = true) :
    Utf8.wellFormed (quoted s) = true := by
  have inner : Utf8.wellFormed (escaped s) = true :=
    Utf8.wellFormed_flatMap (fun b ascii c there => (escape_plain there).2 ascii)
      (fun b other => escape_other other) whole
  have last : Utf8.wellFormed (escaped s ++ [34]) = true :=
    Utf8.wellFormed_append inner (Utf8.wellFormed_ascii (by simp [Utf8.Ascii]))
  have head : Utf8.wellFormed [34] = true := Utf8.wellFormed_ascii (by simp [Utf8.Ascii])
  change Utf8.wellFormed ([34] ++ (escaped s ++ [34])) = true
  exact Utf8.wellFormed_append head last

theorem decimal_plain {n : ℕ} {c : UInt8} (inside : c ∈ decimal n) : 32 ≤ c.toNat ∧ c.toNat < 128 := by
  have digit := decimal_digits n c inside
  simp only [isDigit, Bool.and_eq_true, decide_eq_true_eq] at digit
  omega

mutual

/-- Every text in the tree is well formed. -/
def Value.WellFormed : Value → Prop
  | .text s => Utf8.wellFormed s = true
  | .object members => members.WellFormed
  | _ => True

def Members.WellFormed : Members → Prop
  | .nil => True
  | .cons key value rest => Utf8.wellFormed key = true ∧ value.WellFormed ∧ rest.WellFormed

end

mutual

theorem Value.encode_plain (value : Value) : ∀ c ∈ value.encode, 32 ≤ c.toNat := by
  match value with
  | .null => rw [Value.encode]; simp
  | .number n => rw [Value.encode]; exact fun c inside => (decimal_plain inside).1
  | .text s => rw [Value.encode]; exact fun c inside => quoted_plain inside
  | .object ms =>
    rw [Value.encode]
    exact List.forall_mem_cons.mpr ⟨by decide, ms.encode_plain⟩

theorem Members.encode_plain (ms : Members) : ∀ c ∈ ms.encode, 32 ≤ c.toNat := by
  match ms with
  | .nil => rw [Members.encode]; simp
  | .cons key value .nil =>
    rw [Members.encode]
    have plain := value.encode_plain
    intro c inside
    simp only [List.mem_append, List.mem_cons, List.not_mem_nil, or_false] at inside
    obtain there | rfl | there | rfl := inside
    · exact quoted_plain there
    · decide
    · exact plain c there
    · decide
  | .cons key value (.cons key' value' rest) =>
    have plain := value.encode_plain
    have more := (Members.cons key' value' rest).encode_plain
    rw [Members.encode]
    · intro c inside
      simp only [List.mem_append, List.mem_cons] at inside
      obtain there | rfl | there | rfl | there := inside
      · exact quoted_plain there
      · decide
      · exact plain c there
      · decide
      · exact more c there
    · nofun

end

theorem wellFormed_cons {b : UInt8} {rest : Text} (ascii : b.toNat < 128)
    (whole : Utf8.wellFormed rest = true) : Utf8.wellFormed (b :: rest) = true := by
  have head : Utf8.wellFormed [b] = true :=
    Utf8.wellFormed_ascii fun c same => List.mem_singleton.mp same ▸ ascii
  exact Utf8.wellFormed_append head whole

mutual

theorem Value.encode_wellFormed (value : Value) (whole : value.WellFormed) :
    Utf8.wellFormed value.encode = true := by
  match value with
  | .null => rw [Value.encode]; rfl
  | .number n =>
    rw [Value.encode]
    exact Utf8.wellFormed_ascii fun c inside => (decimal_plain inside).2
  | .text s =>
    rw [Value.WellFormed] at whole
    rw [Value.encode]
    exact quoted_wellFormed whole
  | .object ms =>
    rw [Value.WellFormed] at whole
    rw [Value.encode]
    exact wellFormed_cons (by decide) (ms.encode_wellFormed whole)

theorem Members.encode_wellFormed (ms : Members) (whole : ms.WellFormed) :
    Utf8.wellFormed ms.encode = true := by
  match ms with
  | .nil => rw [Members.encode]; rfl
  | .cons key value .nil =>
    rw [Members.WellFormed] at whole
    have inner := value.encode_wellFormed whole.2.1
    rw [Members.encode]
    exact Utf8.wellFormed_append (quoted_wellFormed whole.1) (wellFormed_cons (by decide)
      (Utf8.wellFormed_append inner (Utf8.wellFormed_ascii (by simp [Utf8.Ascii]))))
  | .cons key value (.cons key' value' rest) =>
    rw [Members.WellFormed] at whole
    have inner := value.encode_wellFormed whole.2.1
    have more := (Members.cons key' value' rest).encode_wellFormed whole.2.2
    rw [Members.encode]
    · exact Utf8.wellFormed_append (quoted_wellFormed whole.1) (wellFormed_cons (by decide)
        (Utf8.wellFormed_append inner (wellFormed_cons (by decide) more)))
    · nofun

end

end TerrapiVault.Json
