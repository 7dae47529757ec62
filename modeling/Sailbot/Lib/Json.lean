import Mathlib.Data.List.Basic

/-!
# JSON texts

The grammar of JSON for texts that have no blanks outside of their strings and no backslashes in
them, as a machine writes them. Control characters are not excluded from strings.

* `JsonText`   — the values.
* `jsonMember` — a member of an object.
* `Plain`      — a character that neither quotes nor structures a text; numbers have only these.
-/

namespace Sailbot.Lib

/-- A character that is no quote, comma or bracket. -/
def Plain (c : Char) : Prop :=
  c ≠ '"' ∧ c ≠ ',' ∧ c ≠ '[' ∧ c ≠ ']' ∧ c ≠ '{' ∧ c ≠ '}'

instance (c : Char) : Decidable (Plain c) := inferInstanceAs (Decidable (_ ∧ _))

instance (t : List Char) : Decidable (∀ c ∈ t, Plain c) := List.decidableBAll _ t

/-- The characters of a string. -/
def Unescaped (s : List Char) : Prop := ∀ c ∈ s, c ≠ '"' ∧ c ≠ '\\'

instance (s : List Char) : Decidable (Unescaped s) := List.decidableBAll _ s

def Digits (ds : List Char) : Prop := ds ≠ [] ∧ ∀ d ∈ ds, d.isDigit = true

instance (ds : List Char) : Decidable (Digits ds) :=
  haveI : Decidable (∀ d ∈ ds, d.isDigit = true) := List.decidableBAll _ ds
  inferInstanceAs (Decidable (_ ∧ _))

/-- A number: a sign, an integer without leading zeros, a fraction and an exponent. -/
def JsonNumber (t : List Char) : Prop :=
  ∃ minus int frac exp, t = minus ++ int ++ frac ++ exp ∧
    (minus = [] ∨ minus = ['-']) ∧
    (int = ['0'] ∨ Digits int ∧ int.head? ≠ some '0') ∧
    (frac = [] ∨ ∃ ds, Digits ds ∧ frac = '.' :: ds) ∧
    (exp = [] ∨ ∃ e sign ds, (e = 'e' ∨ e = 'E') ∧ (sign = [] ∨ sign = ['+'] ∨ sign = ['-']) ∧
      Digits ds ∧ exp = e :: (sign ++ ds))

def jsonString (s : List Char) : List Char := '"' :: (s ++ ['"'])

/-- A member: its name in quotes, and its value. -/
def jsonMember (name value : List Char) : List Char := jsonString name ++ ':' :: value

/-- The texts of values. -/
inductive JsonText : List Char → Prop
  | null : JsonText ['n', 'u', 'l', 'l']
  | true : JsonText ['t', 'r', 'u', 'e']
  | false : JsonText ['f', 'a', 'l', 's', 'e']
  | number (t : List Char) (h : JsonNumber t) : JsonText t
  | string (s : List Char) (h : Unescaped s) : JsonText (jsonString s)
  | array (ts : List (List Char)) (h : ∀ t ∈ ts, JsonText t) :
    JsonText ('[' :: (List.intercalate [','] ts ++ [']']))
  | object (ms : List (List Char × List Char)) (hNames : ∀ m ∈ ms, Unescaped m.1)
    (h : ∀ m ∈ ms, JsonText m.2) :
    JsonText ('{' :: (List.intercalate [','] (ms.map fun m => jsonMember m.1 m.2) ++ ['}']))

-- ---------------------------------------------------------------------------
-- Characters
-- ---------------------------------------------------------------------------

/-- A digit has no meaning of its own in a text. -/
theorem plain_of_isDigit {c : Char} (h : c.isDigit = true) : Plain c := by
  refine ⟨?_, ?_, ?_, ?_, ?_, ?_⟩ <;> rintro rfl <;> exact absurd h (by decide)

theorem Digits.plain {ds : List Char} (h : Digits ds) : ∀ c ∈ ds, Plain c :=
  fun c hc => plain_of_isDigit (h.2 c hc)

theorem JsonNumber.ne_nil {t : List Char} (h : JsonNumber t) : t ≠ [] := by
  obtain ⟨minus, int, frac, exp, rfl, -, hInt, -, -⟩ := h
  have hSome : int ≠ [] := by
    rcases hInt with rfl | ⟨hDigits, -⟩
    · exact List.cons_ne_nil _ _
    · exact hDigits.1
  simp [hSome]

/-- A number has a digit. -/
theorem JsonNumber.exists_digit {t : List Char} (h : JsonNumber t) : ∃ c ∈ t, c.isDigit = true := by
  obtain ⟨minus, int, frac, exp, rfl, -, hInt, -, -⟩ := h
  have hSome : ∃ c ∈ int, c.isDigit = true := by
    rcases hInt with rfl | ⟨⟨hNe, hDigits⟩, -⟩
    · exact ⟨'0', List.mem_singleton_self _, by decide⟩
    · obtain ⟨c, more, rfl⟩ := List.exists_cons_of_ne_nil hNe
      exact ⟨c, List.mem_cons_self, hDigits c List.mem_cons_self⟩
  obtain ⟨c, hc, hDigit⟩ := hSome
  exact ⟨c, by simp [hc], hDigit⟩

/-- All characters of a number are plain. -/
theorem JsonNumber.plain {t : List Char} (h : JsonNumber t) : ∀ c ∈ t, Plain c := by
  obtain ⟨minus, int, frac, exp, rfl, hMinus, hInt, hFrac, hExp⟩ := h
  have hMinus : ∀ c ∈ minus, Plain c := by
    rcases hMinus with rfl | rfl <;> decide
  have hInt : ∀ c ∈ int, Plain c := by
    rcases hInt with rfl | ⟨hDigits, -⟩
    · decide
    · exact hDigits.plain
  have hFrac : ∀ c ∈ frac, Plain c := by
    rcases hFrac with rfl | ⟨ds, hDigits, rfl⟩
    · exact fun c hc => absurd hc List.not_mem_nil
    · exact List.forall_mem_cons.mpr ⟨by decide, hDigits.plain⟩
  have hExp : ∀ c ∈ exp, Plain c := by
    rcases hExp with rfl | ⟨e, sign, ds, he, hSign, hDigits, rfl⟩
    · exact fun c hc => absurd hc List.not_mem_nil
    · refine List.forall_mem_cons.mpr ⟨by rcases he with rfl | rfl <;> decide, ?_⟩
      refine List.forall_mem_append.mpr ⟨?_, hDigits.plain⟩
      rcases hSign with rfl | rfl | rfl <;> decide
  simp only [List.forall_mem_append]
  exact ⟨⟨⟨hMinus, hInt⟩, hFrac⟩, hExp⟩

theorem JsonText.ne_nil {t : List Char} (h : JsonText t) : t ≠ [] := by
  cases h with
  | number _ h => exact h.ne_nil
  | _ => exact List.cons_ne_nil _ _

/-- A value does not end with a comma. -/
theorem JsonText.getLast?_ne_comma {t : List Char} (h : JsonText t) : t.getLast? ≠ some ',' := by
  cases h with
  | null | true | false => decide
  | number t h =>
    intro hLast
    exact (h.plain ',' (List.mem_of_getLast? hLast)).2.1 rfl
  | string s h =>
    rw [jsonString, ← List.cons_append, List.getLast?_concat]
    decide
  | array ts h =>
    rw [← List.cons_append, List.getLast?_concat]
    decide
  | object ms hNames h =>
    rw [← List.cons_append, List.getLast?_concat]
    decide

end Sailbot.Lib
