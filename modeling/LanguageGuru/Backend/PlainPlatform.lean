import LanguageGuru.Backend.Http
import Mathlib.Data.List.TakeDrop

/-!
# A transparent platform

A platform whose functions can be evaluated: case folding of the ASCII letters, emails recognised
by their `@`, hashes that show the password, and tokens that show their claims. It meets the laws
that the results take as hypotheses.

## Main definitions

* `plainPlatform`, `plainConfig`
* `plainRequest`, `plainRegistration`, `plainLogin`, `plainPost`: requests to a route

## Main results

* `plain_toLowerCase_idem`, `plain_compareSync_hashSync`, `plain_tokenLaws`: its laws
-/

namespace LanguageGuru

/-- Tokens live for seven days. -/
def plainLifetime : Time := 604800000

/-- The characters of a token: the time of issue and the length of the subject in unary, then the
subject and the email. -/
def plainToken (payload : TokenPayload) (iat : Time) : List Char :=
  List.replicate iat 'i' ++ List.replicate payload.sub.toList.length 's' ++ '.' ::
    (payload.sub.toList ++ payload.email.toList)

/-- The claims and the time of issue that a token shows. -/
def plainClaims (token : List Char) : TokenPayload × Time :=
  let iat := (token.takeWhile (· = 'i')).length
  let rest := token.dropWhile (· = 'i')
  let n := (rest.takeWhile (· = 's')).length
  let body := (rest.dropWhile (· = 's')).drop 1
  (⟨String.ofList (body.take n), String.ofList (body.drop n)⟩, iat)

theorem plainClaims_plainToken (payload : TokenPayload) (iat : Time) :
    plainClaims (plainToken payload iat) = (payload, iat) := by
  have hi : ∀ c ∈ List.replicate iat 'i', decide (c = 'i') = true := fun c hc =>
    decide_eq_true (List.eq_of_mem_replicate hc)
  have hs : ∀ c ∈ List.replicate payload.sub.toList.length 's', decide (c = 's') = true :=
    fun c hc => decide_eq_true (List.eq_of_mem_replicate hc)
  have hrest : ∀ body : List Char,
      (List.replicate payload.sub.toList.length 's' ++ '.' :: body).takeWhile (· = 'i') = [] ∧
      (List.replicate payload.sub.toList.length 's' ++ '.' :: body).dropWhile (· = 'i') =
        List.replicate payload.sub.toList.length 's' ++ '.' :: body := by
    intro body
    cases payload.sub.toList.length <;> simp [List.replicate_succ]
  simp only [plainClaims, plainToken, List.append_assoc, List.takeWhile_append_of_pos hi,
    List.dropWhile_append_of_pos hi, (hrest _).1, (hrest _).2, List.takeWhile_append_of_pos hs,
    List.dropWhile_append_of_pos hs]
  simp

def plainPlatform : Platform where
  toLowerCase s := String.ofList (s.toList.map Char.toLower)
  isEmail s := s.toList.any (· = '@')
  numberOfString s := s.toNat?.map fun n => (n : ℚ)
  hashSync password _ := "$" ++ password
  compareSync password hash := hash = "$" ++ password
  jwtSign payload _ _ iat := String.ofList (plainToken payload iat)
  jwtVerify token _ now :=
    let claims := plainClaims token.toList
    if token = String.ofList (plainToken claims.1 claims.2) ∧ now < claims.2 + plainLifetime then
      some claims.1
    else none

theorem toLower_idem (c : Char) : c.toLower.toLower = c.toLower := by
  delta Char.toLower
  split
  · rename_i h
    split
    · rename_i h'
      simp only [ge_iff_le, UInt32.le_iff_toNat_le] at h h'
      simp at h h'
      omega
    · rfl
  · rfl

theorem plain_toLowerCase_idem (s : String) :
    plainPlatform.toLowerCase (plainPlatform.toLowerCase s) = plainPlatform.toLowerCase s := by
  simp only [plainPlatform, String.toList_ofList, List.map_map]
  congr 2
  funext c
  exact toLower_idem c

theorem plain_compareSync_hashSync (q p salt : String) :
    plainPlatform.compareSync q (plainPlatform.hashSync p salt) = true ↔ q = p := by
  simp only [plainPlatform, decide_eq_true_eq]
  exact ⟨fun h => ((String.append_right_inj _).mp h).symm, fun h => by rw [h]⟩

/-- A token that was signed is accepted as what it is until it expires. -/
theorem plain_jwtVerify_jwtSign (payload : TokenPayload) (secret expiresIn : String)
    (iat now : Time) :
    plainPlatform.jwtVerify (plainPlatform.jwtSign payload secret expiresIn iat) secret now =
      if now < iat + plainLifetime then some payload else none := by
  simp only [plainPlatform, String.toList_ofList, plainClaims_plainToken, true_and]

/-- Only signed tokens are accepted. -/
theorem plain_jwtSign_of_jwtVerify {token secret : String} (expiresIn : String) {now : Time}
    {payload : TokenPayload} (h : plainPlatform.jwtVerify token secret now = some payload) :
    ∃ iat, token = plainPlatform.jwtSign payload secret expiresIn iat := by
  simp only [plainPlatform] at h ⊢
  split_ifs at h with hc
  obtain rfl := Option.some.inj h
  exact ⟨_, hc.1⟩

def plainConfig : Config where
  env := "test"
  jwtSecret := "test-secret"
  jwtExpiresIn := "7d"
  requestLimit := 5000
  allowedOrigins := ["*"]

theorem plain_tokenLaws :
    TokenLaws plainPlatform plainConfig fun iat now => now < iat + plainLifetime where
  verify_sign payload iat now h := by rw [plain_jwtVerify_jwtSign, if_pos h]
  live_of_verify h := by
    rw [plain_jwtVerify_jwtSign] at h
    split_ifs at h with hlive
    exact hlive
  sign_of_verify h := plain_jwtSign_of_jwtVerify _ h
  sign_ne_empty payload iat h := by
    have hnil := congrArg String.toList h
    simp [plainPlatform, plainToken] at hnil

/-- A request to the route at `path`, in which `createUser` would draw the id `newId`. -/
def plainRequest (method : Method) (path : List String) (authorization : Option String)
    (body : Json) (newId : String) : Request where
  method := method
  path := path.map some
  ip := "127.0.0.1"
  origin := none
  authorization := authorization
  query := {}
  payload := .parsed body
  seeds := ⟨0, 0, 0, 0, newId, "salt", 0⟩

/-- The registration of an account with the id `newId`. -/
def plainRegistration (username email password newId : String) : Request :=
  plainRequest .post ["api", "auth", "register"] none
    (.obj [("username", .str username), ("email", .str email), ("password", .str password)]) newId

/-- The login to an account. -/
def plainLogin (email password : String) : Request :=
  plainRequest .post ["api", "auth", "login"] none
    (.obj [("email", .str email), ("password", .str password)]) ""

/-- The submission of a score. -/
def plainPost (lessonId : String) (score : ℚ) (authorization : Option String) (newId : String) :
    Request :=
  plainRequest .post ["api", "progress"] authorization
    (.obj [("lessonId", .str lessonId), ("score", .num score)]) newId

/-- The header with a token that is signed for a user at `iat`. -/
def plainBearer (id email : String) (iat : Time) : Option String :=
  some ("Bearer " ++
    plainPlatform.jwtSign ⟨id, email⟩ plainConfig.jwtSecret plainConfig.jwtExpiresIn iat)

end LanguageGuru
