import LanguageGuru.Backend.Authentication

/-!
# Passwords

The schemas bound a password to 128 characters, and `bcryptjs` reads 72 bytes of its encoding. A
login is answered 200 exactly when the two passwords have the same key, so an account is safe from
the passwords that differ from its own after the key was read.

## Main definitions

* `bcryptKey`: the 72 bytes that the hash depends on
* `bcryptPlatform`: the transparent platform with hashes that show the key

## Main results

* `bcryptKey_eq_of_take`: passwords that share their first 72 bytes have the same key
* `login_answered_iff`: a login is answered 200 if and only if the password is the registered one,
  exactly for the passwords that are the registered one or have another key
* `long_password_shared`: two passwords that log in to one account
-/

namespace LanguageGuru

open Process

/-- The bytes that `bcryptjs` makes of a password: its UTF-8 encoding and a terminating zero. -/
def passwordBytes (password : String) : List UInt8 :=
  password.toList.flatMap String.utf8EncodeChar ++ [0]

/-- The key that `bcryptjs` expands: 72 bytes, read cyclically from the bytes of the password. -/
def bcryptKey (password : String) : List UInt8 :=
  let bytes := passwordBytes password
  (List.range 72).map fun i => bytes.getD (i % bytes.length) 0

/-- The key of a password that is at least 72 bytes long is its first 72 bytes. -/
theorem bcryptKey_of_length_le {password : String} (h : 72 ≤ (passwordBytes password).length) :
    bcryptKey password = (passwordBytes password).take 72 := by
  apply List.ext_getElem
  · simp [bcryptKey, h]
  · intro i hi hi'
    have hlt : i < 72 := by simpa [bcryptKey] using hi
    have hlen : i < (passwordBytes password).length := hlt.trans_le h
    simp [bcryptKey, Nat.mod_eq_of_lt hlen, hlen]

/-- Two passwords that share their first 72 bytes have the same key. -/
theorem bcryptKey_eq_of_take {p q : String} (hp : 72 ≤ (passwordBytes p).length)
    (hq : 72 ≤ (passwordBytes q).length)
    (h : (passwordBytes q).take 72 = (passwordBytes p).take 72) : bcryptKey q = bcryptKey p := by
  rw [bcryptKey_of_length_le hp, bcryptKey_of_length_le hq, h]

/-- **The registered password logs in and no other one does, exactly when the other one has
another key.** For every account of a run and every password `q` that the schema accepts, a login
with `q` is answered 200 if and only if `q` is the registered password, if and only if `q` is the
registered password or has another key. -/
theorem login_answered_iff {P : Platform} {cfg : Config}
    (hlower : ∀ e, P.toLowerCase (P.toLowerCase e) = P.toLowerCase e)
    (hbcrypt : ∀ q p salt, P.compareSync q (P.hashSync p salt) = true ↔ bcryptKey q = bcryptKey p)
    {catalogue : List CoreLesson} {salt : String} {now : Time} {reqs : List Request} {a : User}
    {p q : String} (hacc : AccountOf P cfg catalogue salt now reqs a p)
    (hq : passwordKey.required P (some (.str q)) = .ok q) {req : Request} {email : String}
    (hlogin : req.LogsIn P email q) (hemail : P.toLowerCase email = P.toLowerCase a.email) :
    ((((createMemoryStore P catalogue salt now).after P cfg reqs).respond P cfg req).map
        Response.status = [200] ↔ q = p) ↔
      (q = p ∨ bcryptKey q ≠ bcryptKey p) := by
  obtain ⟨body, value, hp, he, hv, rfl, rfl⟩ := hlogin.accepted hq
  obtain ⟨salt', hhash⟩ := hacc.passwordHash
  obtain ⟨hyes, hno⟩ := hacc.respond_login hlower hp he hv hemail
  rw [hhash] at hyes hno
  -- the answer depends on the key of the password alone
  have hstatus : (((createMemoryStore P catalogue salt now).after P cfg reqs).respond P cfg
      req).map Response.status = [200] ↔ bcryptKey value.password = bcryptKey p := by
    rw [← hbcrypt value.password p salt']
    cases hc : P.compareSync value.password (P.hashSync p salt') with
    | true =>
      obtain ⟨u, -, hu⟩ := hyes hc
      simp [hu]
    | false => simp [hno hc]
  rw [hstatus]
  constructor
  · -- a password with the key of `p` logs in, so that it is `p`
    intro h
    by_cases hk : bcryptKey value.password = bcryptKey p
    · exact .inl (h.mp hk)
    · exact .inr hk
  · rintro (rfl | hne)
    · simp
    · exact ⟨fun h => absurd h hne, fun h => absurd (congrArg bcryptKey h) hne⟩

/-! ## A platform whose hashes show the key -/

/-- A string that shows the key of a password. -/
def shownKey (password : String) : String := String.ofList ((bcryptKey password).map Char.ofUInt8)

def bcryptPlatform : Platform :=
  { plainPlatform with
    hashSync := fun password _ => shownKey password
    compareSync := fun password hash => hash = shownKey password }

theorem ofUInt8_injective : Function.Injective Char.ofUInt8 := by
  intro b c h
  exact UInt8.toUInt32_inj.mp (congrArg Char.val h)

theorem bcrypt_compareSync_hashSync (q p salt : String) :
    bcryptPlatform.compareSync q (bcryptPlatform.hashSync p salt) = true ↔
      bcryptKey q = bcryptKey p := by
  simp only [bcryptPlatform, decide_eq_true_eq, shownKey, String.ofList_inj]
  exact ⟨fun h => (ofUInt8_injective.list_map h).symm, fun h => by rw [h]⟩

/-- A short password with another key does not log in. -/
theorem short_password_exclusive :
    let registers := plainRegistration "ada" "ada@example.com" "secret1" "u_1"
    let logsIn := plainLogin "ada@example.com" "secret2"
    (((createMemoryStore bcryptPlatform [] "salt" 0).after bcryptPlatform plainConfig
      [registers]).respond bcryptPlatform plainConfig logsIn).map Response.status = [200] ↔
      "secret2" = "secret1" := by
  intro registers logsIn
  let value : RegisterValue := ⟨some "ada", none, "ada@example.com", "secret1", none, none⟩
  have hacc : AccountOf bcryptPlatform plainConfig [] "salt" 0 [registers]
      (createdUser bcryptPlatform registers value) "secret1" :=
    .inr ⟨[], registers, value, List.prefix_rfl, ⟨_, rfl, rfl, rfl, by decide⟩, rfl, rfl⟩
  have hlogin : logsIn.LogsIn bcryptPlatform "ada@example.com" "secret2" :=
    ⟨_, rfl, rfl, rfl, rfl, ⟨none, rfl⟩, ⟨none, rfl⟩, by simp⟩
  have hlower : ∀ e, bcryptPlatform.toLowerCase (bcryptPlatform.toLowerCase e) =
      bcryptPlatform.toLowerCase e := plain_toLowerCase_idem
  have hq : passwordKey.required bcryptPlatform (some (.str "secret2")) = .ok "secret2" := rfl
  have hemail : bcryptPlatform.toLowerCase "ada@example.com" = bcryptPlatform.toLowerCase
      (createdUser bcryptPlatform registers value).email := by decide
  have hkey : bcryptKey "secret2" ≠ bcryptKey "secret1" := by decide +kernel
  exact (login_answered_iff hlower bcrypt_compareSync_hashSync hacc hq hlogin hemail).mpr
    (.inr hkey)

/-- Seventy-two letters and one more. -/
def longPassword (c : Char) : String := String.ofList (List.replicate 72 'a' ++ [c])

theorem take_passwordBytes_longPassword (c : Char) :
    (passwordBytes (longPassword c)).take 72 = List.replicate 72 97 := by
  have hbytes : passwordBytes (longPassword c) =
      List.replicate 72 97 ++ (String.utf8EncodeChar c ++ [0]) := by
    have hletters : (List.replicate 72 'a').flatMap String.utf8EncodeChar =
        List.replicate 72 97 := by rfl
    simp only [passwordBytes, longPassword, String.toList_ofList, List.flatMap_append, hletters,
      List.flatMap_singleton, List.append_assoc]
  rw [hbytes]
  exact List.take_left' (by simp)

theorem bcryptKey_longPassword (c d : Char) :
    bcryptKey (longPassword c) = bcryptKey (longPassword d) := by
  have hlen : ∀ c, 72 ≤ (passwordBytes (longPassword c)).length := fun c => by
    have h := congrArg List.length (take_passwordBytes_longPassword c)
    rw [List.length_take, List.length_replicate] at h
    omega
  exact bcryptKey_eq_of_take (hlen d) (hlen c) (by simp only [take_passwordBytes_longPassword])

/-- Another password logs in to an account with a password of 73 letters. -/
theorem long_password_shared :
    let registers := plainRegistration "ada" "ada@example.com" (longPassword 'b') "u_1"
    let logsIn := plainLogin "ada@example.com" (longPassword 'c')
    ¬ ((((createMemoryStore bcryptPlatform [] "salt" 0).after bcryptPlatform plainConfig
        [registers]).respond bcryptPlatform plainConfig logsIn).map Response.status = [200] ↔
      longPassword 'c' = longPassword 'b') := by
  intro registers logsIn h
  let value : RegisterValue :=
    ⟨some "ada", none, "ada@example.com", longPassword 'b', none, none⟩
  have hacc : AccountOf bcryptPlatform plainConfig [] "salt" 0 [registers]
      (createdUser bcryptPlatform registers value) (longPassword 'b') :=
    .inr ⟨[], registers, value, List.prefix_rfl, ⟨_, rfl, rfl, rfl, by decide⟩, rfl, rfl⟩
  have hlower : ∀ e, bcryptPlatform.toLowerCase (bcryptPlatform.toLowerCase e) =
      bcryptPlatform.toLowerCase e := plain_toLowerCase_idem
  have hv : loginSchema bcryptPlatform (Json.obj [("email", .str "ada@example.com"),
      ("password", .str (longPassword 'c'))]).orEmpty =
      .ok ⟨"ada@example.com", longPassword 'c', none, none⟩ := rfl
  have he : logsIn.endpoint = some .login := rfl
  obtain ⟨hyes, -⟩ := hacc.respond_login hlower rfl he hv (by decide)
  obtain ⟨u, -, hu⟩ := hyes
    ((bcrypt_compareSync_hashSync _ _ "salt").mpr (bcryptKey_longPassword _ _))
  have hpasswords : longPassword 'c' ≠ longPassword 'b' := by decide
  exact hpasswords (h.mp (by rw [hu]; rfl))

end LanguageGuru
