import LanguageGuru.Frontend.Thunks
import Mathlib.Data.List.Basic

/-!
# The text of a user

`JSON.stringify` on the user of a session, and `JSON.parse` on the texts that it writes. A string
stands between quotes, with quotes, backslashes and control characters escaped; the fields of the
user stand in the order of the response.

## Main definitions

* `quoted`, `readQuoted`: a string as JSON text, and back
* `userText`, `readUser`: a user as JSON text, and back
* `userJson`: the two as the JSON functions of the client

## Main results

* `readQuoted_escape`: a string is read back, whatever stands behind it
* `userJson_readsBack`: every user is read back
-/

namespace LanguageGuru

/-- `JSON.parse` reads back every user that `JSON.stringify` writes. -/
def UserJson.ReadsBack (J : UserJson) : Prop :=
  ∀ user, J.parse (J.stringify user) = some (some user)

/-! ## Strings -/

/-- The characters that JSON escapes with one letter, and their letters. -/
def shortEscapes : List (Char × Char) :=
  [('"', '"'), ('\\', '\\'), ('\n', 'n'), ('\r', 'r'), ('\t', 't'), (Char.ofNat 8, 'b'),
    (Char.ofNat 12, 'f')]

def escapeChar (c : Char) : List Char :=
  match shortEscapes.lookup c with
  | some letter => ['\\', letter]
  | none =>
    if c.toNat < 32 then
      ['\\', 'u', '0', '0', Nat.digitChar (c.toNat / 16), Nat.digitChar (c.toNat % 16)]
    else [c]

/-- The character that a letter escapes. -/
def readShort (letter : Char) : Option Char :=
  (shortEscapes.find? fun e => e.2 == letter).map Prod.fst

/-- The control character with these two hexadecimal digits. -/
def readControl (a b : Char) : Option Char :=
  ((List.range 32).find? fun n => Nat.digitChar (n / 16) == a && Nat.digitChar (n % 16) == b).map
    Char.ofNat

/-- A string between quotes. -/
def quoted (s : String) : List Char := '"' :: (s.toList.flatMap escapeChar ++ ['"'])

/-- The string up to its closing quote, and what stands behind it. -/
def readQuoted : List Char → Option (List Char × List Char)
  | [] => none
  | '"' :: cs => some ([], cs)
  | '\\' :: 'u' :: '0' :: '0' :: a :: b :: cs => do
    let c ← readControl a b
    let (text, rest) ← readQuoted cs
    return (c :: text, rest)
  | '\\' :: letter :: cs => do
    let c ← readShort letter
    let (text, rest) ← readQuoted cs
    return (c :: text, rest)
  | c :: cs => do
    let (text, rest) ← readQuoted cs
    return (c :: text, rest)

theorem readControl_digits : ∀ n < 32,
    readControl (Nat.digitChar (n / 16)) (Nat.digitChar (n % 16)) = some (Char.ofNat n) := by
  decide

theorem readShort_of_lookup {c letter : Char} (h : shortEscapes.lookup c = some letter) :
    readShort letter = some c ∧ letter ≠ 'u' := by
  obtain ⟨before, behind, hsplit, -⟩ := List.lookup_eq_some_iff.mp h
  have hmem : (c, letter) ∈ shortEscapes := by
    rw [hsplit]
    simp
  simp only [shortEscapes, List.mem_cons, Prod.mk.injEq, List.not_mem_nil, or_false] at hmem
  obtain ⟨rfl, rfl⟩ | ⟨rfl, rfl⟩ | ⟨rfl, rfl⟩ | ⟨rfl, rfl⟩ | ⟨rfl, rfl⟩ | ⟨rfl, rfl⟩ |
    ⟨rfl, rfl⟩ := hmem <;> decide

theorem readQuoted_escapeChar (c : Char) (cs : List Char) :
    readQuoted (escapeChar c ++ cs) = (readQuoted cs).map fun r => (c :: r.1, r.2) := by
  have hbind : (readQuoted cs).map (fun r => (c :: r.1, r.2)) =
      (readQuoted cs).bind fun r => some (c :: r.1, r.2) := by
    rw [Option.map_eq_bind]
    rfl
  rw [hbind]
  unfold escapeChar
  cases h : shortEscapes.lookup c with
  | some letter =>
    obtain ⟨hread, hne⟩ := readShort_of_lookup h
    simp [readQuoted, hread, hne]
  | none =>
    by_cases hc : c.toNat < 32
    · have hread := readControl_digits c.toNat hc
      rw [Char.ofNat_toNat] at hread
      simp [hc, readQuoted, hread]
    · -- neither a quote nor a backslash, both of which have a letter
      have hplain : c ≠ '"' ∧ c ≠ '\\' := by
        constructor <;> rintro rfl <;> exact absurd h (by decide)
      simp [hc, readQuoted, hplain]

/-- A string is read back from its escaped characters. -/
theorem readQuoted_escape (cs rest : List Char) :
    readQuoted (cs.flatMap escapeChar ++ '"' :: rest) = some (cs, rest) := by
  induction cs with
  | nil => rfl
  | cons c cs ih =>
    rw [List.flatMap_cons, List.append_assoc, readQuoted_escapeChar, ih]
    rfl

/-! ## Users -/

/-- A field of the user: a separator, the name and a string. -/
def fieldText (separator : Char) (name value : String) : List Char :=
  separator :: (quoted name ++ ':' :: quoted value)

/-- The value of a field, and what stands behind it. -/
def readField (separator : Char) (name : String) (cs : List Char) :
    Option (String × List Char) := do
  let cs ← cs.dropPrefix? (separator :: (quoted name ++ [':', '"']))
  let (value, rest) ← readQuoted cs
  return (String.ofList value, rest)

theorem readField_fieldText (separator : Char) (name value : String) (rest : List Char) :
    readField separator name (fieldText separator name value ++ rest) = some (value, rest) := by
  have hprefix : fieldText separator name value ++ rest =
      (separator :: (quoted name ++ [':', '"'])) ++
        (value.toList.flatMap escapeChar ++ '"' :: rest) := by
    simp [fieldText, quoted]
  rw [readField, hprefix, List.dropPrefix?_append_of_beq _ (beq_self_eq_true _)]
  simp [readQuoted_escape]

/-- `JSON.stringify(user)`. -/
def userText (u : SanitizedUser) : List Char :=
  fieldText '\x7b' "id" u.id ++ (fieldText ',' "username" u.username ++
    (fieldText ',' "name" u.name ++ (fieldText ',' "email" u.email ++
      (fieldText ',' "role" u.role ++ (fieldText ',' "targetRole" u.targetRole ++
        (",\"createdAt\":".toList ++ (Nat.toDigits 10 u.createdAt ++ ['\x7d'])))))))

/-- The user of a text that `userText` writes. -/
def readUser (cs : List Char) : Option SanitizedUser := do
  let (id, cs) ← readField '\x7b' "id" cs
  let (username, cs) ← readField ',' "username" cs
  let (name, cs) ← readField ',' "name" cs
  let (email, cs) ← readField ',' "email" cs
  let (role, cs) ← readField ',' "role" cs
  let (targetRole, cs) ← readField ',' "targetRole" cs
  let cs ← cs.dropPrefix? ",\"createdAt\":".toList
  let createdAt := Nat.ofDigitChars 10 (cs.takeWhile Char.isDigit) 0
  return { id, username, name, email, role, targetRole, createdAt }

theorem takeWhile_toDigits (n : ℕ) :
    (Nat.toDigits 10 n ++ ['\x7d']).takeWhile Char.isDigit = Nat.toDigits 10 n := by
  have hdigits : ∀ d ∈ Nat.toDigits 10 n, d.isDigit = true := fun d hd =>
    Nat.isDigit_of_mem_toDigits (by omega) (by omega) hd
  rw [List.takeWhile_append_of_pos hdigits, List.takeWhile_cons_of_neg (by decide),
    List.append_nil]

/-- **Every user is read back.** -/
theorem readUser_userText (u : SanitizedUser) : readUser (userText u) = some u := by
  have hdrop : ∀ cs : List Char, (",\"createdAt\":".toList ++ cs).dropPrefix?
      ",\"createdAt\":".toList = some cs := fun cs =>
    List.dropPrefix?_append_of_beq cs (beq_self_eq_true _)
  simp only [readUser, userText, readField_fieldText, hdrop, Option.bind_eq_bind,
    Option.bind_some, takeWhile_toDigits, Nat.ofDigitChars_ten_toDigits]
  rfl

/-- The JSON functions on the users of the client. -/
def userJson : UserJson where
  stringify u := String.ofList (userText u)
  parse text := if text = "null" then some none else (readUser text.toList).map some

theorem userJson_readsBack : userJson.ReadsBack := by
  intro u
  have hnull : String.ofList (userText u) ≠ "null" := by
    intro h
    have hchars := congrArg String.toList h
    simp [userText, fieldText] at hchars
  simp only [userJson, if_neg hnull, String.toList_ofList, readUser_userText, Option.map_some]

end LanguageGuru
