import LanguageGuru.Backend.Http
import Mathlib.Algebra.Order.Ring.Rat

/-!
# The request schemas

The Joi schemas of the backend with the checks in the order in which Joi makes them: the keys of
the schema in the order of their definition, then keys the schema does not know, then the
dependencies between keys. Validation stops at the first error, and its message is the one that
the handlers send back.

## Main definitions

* `StringKey`: the rules of one string key, and their check
* `registerSchema`, `loginSchema`, `progressSchema`: the validated values or the error message

## Main results

* `StringKey.check_eq_ok`: which strings a key accepts, and as what
* `StringKey.optional_eq_ok`, `StringKey.required_eq_ok`: which fields a key accepts
* `registerSchema_eq_ok`, `loginSchema_eq_ok`, `progressSchema_eq_ok`: which bodies a schema
  accepts, and as what
-/

namespace LanguageGuru

/-- A chain of checks accepts when each of them does. -/
theorem bind_eq_ok {α β : Type} {x : Except String α} {f : α → Except String β} {b : β} :
    (x >>= f) = .ok b ↔ ∃ a, x = .ok a ∧ f a = .ok b := by
  cases x with
  | error e => exact ⟨nofun, nofun⟩
  | ok a =>
    constructor
    · exact fun h => ⟨a, rfl, h⟩
    · rintro ⟨_, ⟨⟩, h⟩
      exact h

theorem map_eq_ok {α β : Type} {x : Except String α} {f : α → β} {b : β} :
    x.map f = .ok b ↔ ∃ a, x = .ok a ∧ f a = b := by
  cases x <;> simp [Except.map]

theorem toOption_eq_some {α : Type} {x : Except String α} {a : α} :
    x.toOption = some a ↔ x = .ok a := by
  cases x <;> simp [Except.toOption]

/-- A key as Joi prints it in its messages. -/
def quote (label : String) : String := "\"" ++ label ++ "\""

/-- The rules of a string key: `trim`, `min`, `max` and `email`. -/
structure StringKey where
  label : String
  trims : Bool := false
  min : Option ℕ := none
  max : Option ℕ := none
  email : Bool := false

namespace StringKey

/-- The value of a present key after the conversions of its schema. -/
def convert (k : StringKey) (s : String) : String := if k.trims then trim s else s

/-- The rules on a string, in order. -/
def check (P : Platform) (k : StringKey) (s : String) : Except String String :=
  let v := k.convert s
  -- a string is refused when it is empty, before its rules are looked at
  if v = "" then .error (quote k.label ++ " is not allowed to be empty")
  else if k.min.any (jsLength v < ·) then
    .error (quote k.label ++ " length must be at least " ++ toString (k.min.getD 0) ++
      " characters long")
  else if k.max.any (· < jsLength v) then
    .error (quote k.label ++ " length must be less than or equal to " ++
      toString (k.max.getD 0) ++ " characters long")
  else if k.email ∧ P.isEmail v = false then .error (quote k.label ++ " must be a valid email")
  else .ok v

/-- A key accepts a string that is not empty after its conversions and keeps its rules. -/
theorem check_eq_ok {P : Platform} {k : StringKey} {s v : String} :
    k.check P s = .ok v ↔ k.convert s = v ∧ v ≠ "" ∧ (∀ n ∈ k.min, n ≤ jsLength v) ∧
      (∀ n ∈ k.max, jsLength v ≤ n) ∧ (k.email = true → P.isEmail v = true) := by
  rw [check]
  constructor
  · intro h
    split_ifs at h with h₀ h₁ h₂ h₃
    -- the string passed every rule: each of the refused conditions is read off
    obtain rfl := Except.ok.inj h
    refine ⟨rfl, h₀, fun n hn => ?_, fun n hn => ?_, fun he => ?_⟩
    · rw [hn] at h₁
      simpa using h₁
    · rw [hn] at h₂
      simpa using h₂
    · simpa [he] using h₃
  · rintro ⟨rfl, h₀, h₁, h₂, h₃⟩
    have hmin : (k.min.any (jsLength (k.convert s) < ·)) = false := by
      cases hk : k.min with
      | none => rfl
      | some n => simpa using h₁ n hk
    have hmax : (k.max.any (· < jsLength (k.convert s))) = false := by
      cases hk : k.max with
      | none => rfl
      | some n => simpa using h₂ n hk
    have hemail : ¬ (k.email = true ∧ P.isEmail (k.convert s) = false) := by
      rintro ⟨he, hf⟩
      rw [h₃ he] at hf
      cases hf
    rw [if_neg h₀, hmin, hmax, if_neg hemail]
    rfl

/-- A key that may be absent. -/
def optional (P : Platform) (k : StringKey) : Option Json → Except String (Option String)
  | none => .ok none
  | some (.str s) => (k.check P s).map some
  | some _ => .error (quote k.label ++ " must be a string")

/-- A key that may be absent accepts its absence, and the strings that keep its rules. -/
theorem optional_eq_ok {P : Platform} {k : StringKey} {field : Option Json}
    {value : Option String} :
    k.optional P field = .ok value ↔ (field = none ∧ value = none) ∨
      ∃ s v, field = some (.str s) ∧ k.check P s = .ok v ∧ value = some v := by
  match field with
  | none => simp [optional, eq_comm]
  | some (.str s) =>
    rw [optional, map_eq_ok]
    simp [eq_comm]
  | some .null | some (.bool _) | some (.num _) | some (.arr _) | some (.obj _) =>
    simp [optional]

theorem check_of_optional {P : Platform} {k : StringKey} {field : Option Json} {v : String}
    (h : k.optional P field = .ok (some v)) : ∃ s, k.check P s = .ok v := by
  obtain ⟨-, hnone⟩ | ⟨s, w, -, hcheck, hw⟩ := optional_eq_ok.mp h
  · cases hnone
  · exact ⟨s, Option.some.inj hw ▸ hcheck⟩

/-- A key that must be present. -/
def required (P : Platform) (k : StringKey) : Option Json → Except String String
  | none => .error (quote k.label ++ " is required")
  | some (.str s) => k.check P s
  | some _ => .error (quote k.label ++ " must be a string")

theorem required_eq_ok {P : Platform} {k : StringKey} {field : Option Json} {v : String} :
    k.required P field = .ok v ↔ ∃ s, field = some (.str s) ∧ k.check P s = .ok v := by
  match field with
  | none => simp [required]
  | some (.str s) => simp [required]
  | some .null | some (.bool _) | some (.num _) | some (.arr _) | some (.obj _) =>
    simp [required]

end StringKey

/-- `Joi.object`: the fields of an object. -/
def objectFields : Json → Except String (List (String × Json))
  | .obj fields => .ok fields
  | _ => .error (quote "value" ++ " must be of type object")

/-- The error for the first key that the schema does not know. -/
def rejectUnknown (known : List String) (fields : List (String × Json)) : Except String Unit :=
  match fields.find? fun f => f.1 ∉ known with
  | some f => .error (quote f.1 ++ " is not allowed")
  | none => .ok ()

theorem rejectUnknown_eq_ok {known : List String} {fields : List (String × Json)} {u : Unit} :
    rejectUnknown known fields = .ok u ↔ ∀ f ∈ fields, f.1 ∈ known := by
  unfold rejectUnknown
  cases h : fields.find? fun f => f.1 ∉ known with
  | none => simpa using h
  | some f =>
    have hf := List.find?_some h
    refine ⟨nofun, fun hall => ?_⟩
    simp [hall f (List.mem_of_find?_eq_some h)] at hf

theorem objectFields_eq_ok {body : Json} {fields : List (String × Json)} :
    objectFields body = .ok fields ↔ body = .obj fields := by
  cases body <;> simp [objectFields]

structure RegisterValue where
  username : Option String
  name : Option String
  email : String
  password : String
  role : Option String
  targetRole : Option String
  deriving DecidableEq, Repr

structure LoginValue where
  email : String
  password : String
  role : Option String
  targetRole : Option String
  deriving DecidableEq, Repr

structure ProgressValue where
  lessonId : String
  completed : Bool
  score : ℚ
  deriving DecidableEq, Repr

/-- `Joi.string().trim().min(2).max(80)`, for `username` and `name`. -/
def nameKey (label : String) : StringKey :=
  { label, trims := true, min := some 2, max := some 80 }

/-- `Joi.string().email()`. -/
def emailKey : StringKey := { label := "email", email := true }

/-- `Joi.string().min(6).max(128)`. -/
def passwordKey : StringKey := { label := "password", min := some 6, max := some 128 }

/-- `Joi.string().trim().max(80)`, for `role` and `targetRole`. -/
def roleKey (label : String) : StringKey := { label, trims := true, max := some 80 }

def registerSchema (P : Platform) (body : Json) : Except String RegisterValue := do
  let fields ← objectFields body
  let username ← (nameKey "username").optional P (fields.lookup "username")
  let name ← (nameKey "name").optional P (fields.lookup "name")
  let email ← emailKey.required P (fields.lookup "email")
  let password ← passwordKey.required P (fields.lookup "password")
  let role ← (roleKey "role").optional P (fields.lookup "role")
  let targetRole ← (roleKey "targetRole").optional P (fields.lookup "targetRole")
  rejectUnknown ["username", "name", "email", "password", "role", "targetRole"] fields
  -- the dependency between the two names comes after all keys
  if username = none ∧ name = none then .error "Either username or name is required"
  else .ok { username, name, email, password, role, targetRole }

/-- The bodies that `registerSchema` accepts. -/
theorem registerSchema_eq_ok {P : Platform} {body : Json} {value : RegisterValue} :
    registerSchema P body = .ok value ↔ ∃ fields, body = .obj fields ∧
      (nameKey "username").optional P (fields.lookup "username") = .ok value.username ∧
      (nameKey "name").optional P (fields.lookup "name") = .ok value.name ∧
      emailKey.required P (fields.lookup "email") = .ok value.email ∧
      passwordKey.required P (fields.lookup "password") = .ok value.password ∧
      (roleKey "role").optional P (fields.lookup "role") = .ok value.role ∧
      (roleKey "targetRole").optional P (fields.lookup "targetRole") = .ok value.targetRole ∧
      (∀ f ∈ fields, f.1 ∈ ["username", "name", "email", "password", "role", "targetRole"]) ∧
      ¬ (value.username = none ∧ value.name = none) := by
  simp only [registerSchema, bind_eq_ok, objectFields_eq_ok, rejectUnknown_eq_ok]
  constructor
  · rintro ⟨fields, rfl, username, hu, name, hn, email, he, password, hp, role, hr, targetRole,
      ht, -, hk, h⟩
    split_ifs at h with hnone
    obtain rfl := Except.ok.inj h
    exact ⟨fields, rfl, hu, hn, he, hp, hr, ht, hk, hnone⟩
  · rintro ⟨fields, rfl, hu, hn, he, hp, hr, ht, hk, hnone⟩
    exact ⟨fields, rfl, _, hu, _, hn, _, he, _, hp, _, hr, _, ht, (), hk, if_neg hnone⟩

def loginSchema (P : Platform) (body : Json) : Except String LoginValue := do
  let fields ← objectFields body
  let email ← emailKey.required P (fields.lookup "email")
  let password ← passwordKey.required P (fields.lookup "password")
  let role ← (roleKey "role").optional P (fields.lookup "role")
  let targetRole ← (roleKey "targetRole").optional P (fields.lookup "targetRole")
  rejectUnknown ["email", "password", "role", "targetRole"] fields
  .ok { email, password, role, targetRole }

/-- The bodies that `loginSchema` accepts. -/
theorem loginSchema_eq_ok {P : Platform} {body : Json} {value : LoginValue} :
    loginSchema P body = .ok value ↔ ∃ fields, body = .obj fields ∧
      emailKey.required P (fields.lookup "email") = .ok value.email ∧
      passwordKey.required P (fields.lookup "password") = .ok value.password ∧
      (roleKey "role").optional P (fields.lookup "role") = .ok value.role ∧
      (roleKey "targetRole").optional P (fields.lookup "targetRole") = .ok value.targetRole ∧
      ∀ f ∈ fields, f.1 ∈ ["email", "password", "role", "targetRole"] := by
  simp only [loginSchema, bind_eq_ok, objectFields_eq_ok, rejectUnknown_eq_ok]
  constructor
  · rintro ⟨fields, rfl, email, he, password, hp, role, hr, targetRole, ht, -, hk, h⟩
    obtain rfl := Except.ok.inj h
    exact ⟨fields, rfl, he, hp, hr, ht, hk⟩
  · rintro ⟨fields, rfl, he, hp, hr, ht, hk⟩
    exact ⟨fields, rfl, _, he, _, hp, _, hr, _, ht, (), hk, rfl⟩

/-- `Joi.boolean().default(d)`: the strings `true` and `false` are converted. -/
def booleanKey (P : Platform) (label : String) (d : Bool) : Option Json → Except String Bool
  | none => .ok d
  | some (.bool b) => .ok b
  | some (.str s) =>
    if P.toLowerCase s = "true" then .ok true
    else if P.toLowerCase s = "false" then .ok false
    else .error (quote label ++ " must be a boolean")
  | some _ => .error (quote label ++ " must be a boolean")

/-- The rules `min(0)` and `max(100)` on a number, after Joi's check that it is safe. -/
def scoreRules (label : String) (q : ℚ) : Except String ℚ :=
  if 9007199254740991 < q ∨ q < -9007199254740991 then
    .error (quote label ++ " must be a safe number")
  else if q < 0 then .error (quote label ++ " must be greater than or equal to 0")
  else if 100 < q then .error (quote label ++ " must be less than or equal to 100")
  else .ok q

/-- `Joi.number().min(0).max(100).default(d)`: numeric strings are converted. -/
def numberKey (P : Platform) (label : String) (d : ℚ) : Option Json → Except String ℚ
  | none => .ok d
  | some (.num q) => scoreRules label q
  | some (.str s) =>
    match P.numberOfString s with
    | some q => scoreRules label q
    | none => .error (quote label ++ " must be a number")
  | some _ => .error (quote label ++ " must be a number")

/-- `Joi.string().required()`. -/
def lessonIdKey : StringKey := { label := "lessonId" }

def progressSchema (P : Platform) (body : Json) : Except String ProgressValue := do
  let fields ← objectFields body
  let lessonId ← lessonIdKey.required P (fields.lookup "lessonId")
  let completed ← booleanKey P "completed" true (fields.lookup "completed")
  let score ← numberKey P "score" 0 (fields.lookup "score")
  rejectUnknown ["lessonId", "completed", "score"] fields
  .ok { lessonId, completed, score }

/-- The bodies that `progressSchema` accepts. -/
theorem progressSchema_eq_ok {P : Platform} {body : Json} {value : ProgressValue} :
    progressSchema P body = .ok value ↔ ∃ fields, body = .obj fields ∧
      lessonIdKey.required P (fields.lookup "lessonId") = .ok value.lessonId ∧
      booleanKey P "completed" true (fields.lookup "completed") = .ok value.completed ∧
      numberKey P "score" 0 (fields.lookup "score") = .ok value.score ∧
      ∀ f ∈ fields, f.1 ∈ ["lessonId", "completed", "score"] := by
  simp only [progressSchema, bind_eq_ok, objectFields_eq_ok, rejectUnknown_eq_ok]
  constructor
  · rintro ⟨fields, rfl, lessonId, hl, completed, hc, score, hs, -, hk, h⟩
    obtain rfl := Except.ok.inj h
    exact ⟨fields, rfl, hl, hc, hs, hk⟩
  · rintro ⟨fields, rfl, hl, hc, hs, hk⟩
    exact ⟨fields, rfl, _, hl, _, hc, _, hs, (), hk, rfl⟩

end LanguageGuru
