import Mathlib.Algebra.Ring.Nat
import Mathlib.Data.List.DropRight
import Mathlib.Data.Rat.Defs

/-!
# The platform of the backend

The language primitives and the libraries that the backend calls. String trimming, string length
and truthiness are defined as JavaScript defines them. Case folding, the email and number rules of
the validation library, password hashing and token signing are the fields of a `Platform`; what a
result needs of them it takes as a named hypothesis.

## Main definitions

* `trim`, `jsLength`, `orElse`: `String.prototype.trim`, `length`, and `||` on optional strings
* `Platform`: the functions of the libraries
* `Config`: the configuration that `getConfig` reads
* `TokenLaws`: what `jwt.verify` accepts
-/

namespace LanguageGuru

/-- Milliseconds since the epoch, as `Date.now()` gives them. -/
abbrev Time := ℕ

/-- The white space and line terminators that `String.prototype.trim` removes. -/
def isWhitespace (c : Char) : Bool :=
  let n := c.toNat
  (0x9 ≤ n && n ≤ 0xD) || n == 0x20 || n == 0xA0 || n == 0x1680 || (0x2000 ≤ n && n ≤ 0x200A) ||
    n == 0x2028 || n == 0x2029 || n == 0x202F || n == 0x205F || n == 0x3000 || n == 0xFEFF

/-- `String.prototype.trim`. -/
def trim (s : String) : String :=
  String.ofList ((s.toList.dropWhile isWhitespace).reverse.dropWhile isWhitespace).reverse

/-- A trimmed string has nothing left to trim. -/
theorem trim_trim (s : String) : trim (trim s) = trim s := by
  have htrim : ∀ s, trim s =
      String.ofList ((s.toList.dropWhile isWhitespace).rdropWhile isWhitespace) := fun _ => rfl
  generalize hkept : (s.toList.dropWhile isWhitespace).rdropWhile isWhitespace = kept
  have hleft : kept.dropWhile isWhitespace = kept := by
    refine List.dropWhile_eq_self_iff.mpr fun hlen => ?_
    have hkept_le : kept <+: s.toList.dropWhile isWhitespace := hkept ▸ List.rdropWhile_prefix _ _
    have hdrop : 0 < (s.toList.dropWhile isWhitespace).length :=
      hlen.trans_le hkept_le.length_le
    rw [hkept_le.getElem hlen]
    exact List.dropWhile_eq_self_iff.mp (List.dropWhile_idempotent _ _) hdrop
  have hright : kept.rdropWhile isWhitespace = kept := hkept ▸ List.rdropWhile_idempotent _ _
  rw [htrim s, hkept, htrim, String.toList_ofList, hleft, hright]

/-- The `length` of a string: its UTF-16 code units. -/
def jsLength (s : String) : ℕ :=
  (s.toList.map fun c => if c.toNat < 0x10000 then 1 else 2).sum

/-- `a || b` for a string that may be undefined: an empty string is falsy too. -/
def orElse (a : Option String) (b : String) : String :=
  match a with
  | some s => if s = "" then b else s
  | none => b

@[simp] theorem orElse_none (b : String) : orElse none b = b := rfl

@[simp] theorem orElse_some (s b : String) : orElse (some s) b = if s = "" then b else s := rfl

/-- The claims of a token: the subject and the email that `signToken` puts into it. -/
structure TokenPayload where
  sub : String
  email : String
  deriving DecidableEq, Repr

/-- The library functions the backend calls. -/
structure Platform where
  /-- `String.prototype.toLowerCase`. -/
  toLowerCase : String → String
  /-- The rule `Joi.string().email()`. -/
  isEmail : String → Bool
  /-- The number that Joi reads from a string, if the string is numeric. -/
  numberOfString : String → Option ℚ
  /-- `bcrypt.hashSync`, with the random salt it draws. -/
  hashSync : (password salt : String) → String
  /-- `bcrypt.compareSync`. -/
  compareSync : (password hash : String) → Bool
  /-- `jwt.sign` at the time `iat`. -/
  jwtSign : TokenPayload → (secret expiresIn : String) → (iat : Time) → String
  /-- `jwt.verify` at the time `now`: the payload, or nothing when it throws. -/
  jwtVerify : (token secret : String) → (now : Time) → Option TokenPayload

/-- The configuration that `getConfig` reads from the environment. -/
structure Config where
  env : String
  jwtSecret : String
  jwtExpiresIn : String
  requestLimit : ℕ
  allowedOrigins : List String
  deriving Repr

/-- What `jwt.verify` accepts: exactly the signed tokens that are still live, where `Live iat now`
says that a token signed at `iat` is unexpired at `now`. It returns their payload. A signed token is
never empty. -/
structure TokenLaws (P : Platform) (cfg : Config) (Live : Time → Time → Prop) : Prop where
  verify_sign : ∀ payload {iat now}, Live iat now →
    P.jwtVerify (P.jwtSign payload cfg.jwtSecret cfg.jwtExpiresIn iat) cfg.jwtSecret now =
      some payload
  live_of_verify : ∀ {payload payload' iat now},
    P.jwtVerify (P.jwtSign payload cfg.jwtSecret cfg.jwtExpiresIn iat) cfg.jwtSecret now =
      some payload' → Live iat now
  sign_of_verify : ∀ {token now payload}, P.jwtVerify token cfg.jwtSecret now = some payload →
    ∃ iat, token = P.jwtSign payload cfg.jwtSecret cfg.jwtExpiresIn iat
  sign_ne_empty : ∀ payload iat, P.jwtSign payload cfg.jwtSecret cfg.jwtExpiresIn iat ≠ ""

section Rejected

variable {P : Platform} {cfg : Config} {Live : Time → Time → Prop}

/-- A token that was not signed is not accepted. -/
theorem TokenLaws.verify_of_unsigned (h : TokenLaws P cfg Live) {token : String} (now : Time)
    (hunsigned : ∀ payload iat,
      token ≠ P.jwtSign payload cfg.jwtSecret cfg.jwtExpiresIn iat) :
    P.jwtVerify token cfg.jwtSecret now = none := by
  cases hv : P.jwtVerify token cfg.jwtSecret now with
  | none => rfl
  | some payload =>
    obtain ⟨iat, htoken⟩ := h.sign_of_verify hv
    exact absurd htoken (hunsigned payload iat)

/-- A signed token is not accepted when it is not live. -/
theorem TokenLaws.verify_of_dead (h : TokenLaws P cfg Live) (payload : TokenPayload)
    {iat now : Time} (hdead : ¬ Live iat now) :
    P.jwtVerify (P.jwtSign payload cfg.jwtSecret cfg.jwtExpiresIn iat) cfg.jwtSecret now =
      none := by
  cases hv : P.jwtVerify (P.jwtSign payload cfg.jwtSecret cfg.jwtExpiresIn iat) cfg.jwtSecret now
    with
  | none => rfl
  | some payload' => exact absurd (h.live_of_verify hv) hdead

/-- An empty token is not accepted. -/
theorem TokenLaws.verify_empty (h : TokenLaws P cfg Live) (now : Time) :
    P.jwtVerify "" cfg.jwtSecret now = none :=
  h.verify_of_unsigned now fun payload iat => (h.sign_ne_empty payload iat).symm

end Rejected

end LanguageGuru
