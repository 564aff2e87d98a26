import Netra.Gateway.Requests
import Mathlib.Algebra.Order.Group.MinMax
import Mathlib.Data.Rat.Floor
/-!
# Who is let in

The tokens of `backend/gateway/main.py` and the roles of `backend/services/auth/roles.py`.
The gateway keeps no session: what a request is answered depends on it alone, and what ties
a request to a login is the token it carries. Outside development, what needs a user runs
for the well-formed requests that carry a token which was handed out for the secret and has
not run out, and for no others (`access_controlled`). All tokens are the administrator's, so
no role is ever too low.
-/
namespace Netra.Gateway

/-! ## `roles.py` -/

structure HTTPException where
  status : Nat
  detail : String
  deriving DecidableEq

/-- What the handlers read of the `dict` of a token. -/
structure User where
  sub : Option String
  role : Option String
  deriving DecidableEq

def roleHierarchy : List String := ["operator", "manager", "admin"]

def checkRole (user : User) (minimumRole : String) : Except HTTPException Unit :=
  let role := user.role.getD "operator"
  match roleHierarchy.idxOf? role, roleHierarchy.idxOf? minimumRole with
  | some userLevel, some minLevel =>
    if userLevel < minLevel then
      .error ⟨403, s!"Role '{role}' cannot access this resource (requires '{minimumRole}')"⟩
    else .ok ()
  | _, _ => .error ⟨403, s!"Unknown role '{role}'"⟩

/-! ## Tokens -/

inductive Environment where
  | development
  | staging
  | production
  deriving DecidableEq

structure AuthSettings where
  environment : Environment := .development
  jwtSecret : String := "CHANGE_ME_IN_PRODUCTION"
  jwtAlgorithm : String := "HS256"
  jwtExpireMinutes : Int := 1440

/-- `exp` is in seconds, cut as PyJWT cuts it. -/
structure Payload where
  sub : String
  role : String
  exp : Int

/-- PyJWT. A token has its three parts between dots, and one that was encoded under a key
is decoded under it until it runs out. -/
structure Jwt where
  encode : Payload → String → String → String
  decode : String → String → List String → ℚ → Except String User
  dotted : ∀ p k a, '.' ∈ (encode p k a).toList
  decode_encode : ∀ p k a now, decode (encode p k a) k [a] now =
    if now < p.exp then .ok ⟨some p.sub, some p.role⟩ else .error "Signature has expired"

inductive Response where
  /-- no route: 404 or 405 -/
  | noRoute
  | refused (e : HTTPException)
  /-- 422 -/
  | invalid
  /-- 500 -/
  | failed
  | token (accessToken : String)
  /-- the handler runs -/
  | served (h : Handler) (user : Option User)

section
variable (py : Pydantic) (settings : AuthSettings) (jwt : Option Jwt)

/-- `lifespan` gets past its check of the secret. -/
def starts : Bool :=
  !(settings.jwtSecret = "CHANGE_ME_IN_PRODUCTION" && settings.environment ≠ .development)

def createToken (now : ℚ) (userId role : String) : Option String :=
  match jwt with
  | none => if settings.environment ≠ .development then none else some "dev-token"
  | some jwt =>
    let exp := ⌊now + settings.jwtExpireMinutes * 60⌋
    some (jwt.encode ⟨userId, role, exp⟩ settings.jwtSecret settings.jwtAlgorithm)

def devUser : User := ⟨some "dev", some "admin"⟩

/-- What the tokens of `login` say. -/
def adminUser : User := ⟨some "admin", some "admin"⟩

def verifyToken (now : ℚ) (token : String) : Except HTTPException User :=
  if token = "dev-token" then
    if settings.environment = .development then .ok devUser else .error ⟨401, "Invalid token"⟩
  else
    match jwt with
    | none => .error ⟨401, "Token verification unavailable"⟩
    | some jwt => (jwt.decode token settings.jwtSecret [settings.jwtAlgorithm] now).mapError (⟨401, ·⟩)

def getCurrentUser (now : ℚ) : Option String → Except HTTPException User
  | none => if settings.environment = .development then .ok devUser else .error ⟨401, "Missing token"⟩
  | some credentials => verifyToken settings jwt now credentials

def Guard.letIn (r : Request) : Guard → Except HTTPException (Option User)
  | .none => .ok Option.none
  | .user => (getCurrentUser settings jwt r.now r.creds).map some
  | .role minimum => do
    let user ← getCurrentUser settings jwt r.now r.creds
    checkRole user minimum
    return some user

def login (now : ℚ) (body : LoginRequest) : Response :=
  if body.username = "admin" && body.password = settings.jwtSecret then
    match createToken settings jwt now "admin" "admin" with
    | none => .failed
    | some token => .token token
  else .refused ⟨401, "Invalid credentials"⟩

/-- The answer to a request whose body is not parsed. -/
def Body.unparsed : Body → Response
  | .undecodable => .refused ⟨400, "There was an error parsing the body"⟩
  | _ => .invalid

/-- The handler is called. -/
def call (r : Request) (user : Option User) : Handler → Response
  | .login =>
    match loginRequest r.body with
    -- never (`accepts_login`)
    | none => .invalid
    | some body => login settings jwt r.now body
  | h => .served h user

def respond (r : Request) : Response :=
  match handlerOf r.method r.path with
  | none => .noRoute
  | some h =>
    if h.parses r.body then
      match h.guard.letIn settings jwt r with
      | .error e => .refused e
      | .ok user => if h.accepts py r then call settings jwt r user h else .invalid
    else r.body.unparsed

/-- Nobody but the gateway makes tokens that PyJWT accepts: one that it accepts was the
answer to an earlier request. -/
def Genuine (rs : List Request) : Prop :=
  ∀ pre r post, rs = pre ++ r :: post → ∀ t j user, r.creds = some t → jwt = some j →
    j.decode t settings.jwtSecret [settings.jwtAlgorithm] r.now = .ok user →
    ∃ r' ∈ pre, respond py settings jwt r' = .token t

/-- `r'` logs in with the secret, is given the token that `r` carries, and `r` comes before
it runs out. -/
def Covers (r' r : Request) : Prop :=
  handlerOf r'.method r'.path = some .login ∧ loginRequest r'.body = some ⟨"admin", settings.jwtSecret⟩ ∧
    (∃ t, respond py settings jwt r' = .token t ∧ r.creds = some t) ∧
    r.now < ⌊r'.now + settings.jwtExpireMinutes * 60⌋

/-- How the request `r` for `h` is answered, which asks for a user or a role and comes after
the requests `pre`. -/
structure Controlled (pre : List Request) (r : Request) (h : Handler) : Prop where
  /-- The handler runs, as the administrator, for the well-formed requests with a token. -/
  served : ∀ user, respond py settings jwt r = .served h user ↔
    user = some adminUser ∧ h.parses r.body ∧ h.accepts py r ∧ ∃ r' ∈ pre, Covers py settings jwt r' r
  /-- A body that cannot be parsed is reported whoever sends it. -/
  unparsed : ¬ h.parses r.body → respond py settings jwt r = r.body.unparsed
  /-- Anyone without a token is answered 401, never 403. -/
  stranger : h.parses r.body → (¬ ∃ r' ∈ pre, Covers py settings jwt r' r) →
    ∃ detail, respond py settings jwt r = .refused ⟨401, detail⟩
  invalid : h.parses r.body → (∃ r' ∈ pre, Covers py settings jwt r' r) → ¬ h.accepts py r →
    respond py settings jwt r = .invalid
  /-- The secret is not the published default. -/
  secret : ∀ r' ∈ pre, Covers py settings jwt r' r →
    loginRequest r'.body ≠ some ⟨"admin", "CHANGE_ME_IN_PRODUCTION"⟩

end

/-! ## What is answered -/

section
variable {py : Pydantic} {settings : AuthSettings} {jwt : Option Jwt}

theorem admin_passes (minimum : String) (h : minimum ∈ roleHierarchy) (sub : Option String) :
    checkRole ⟨sub, some "admin"⟩ minimum = .ok () := by
  simp only [roleHierarchy, List.mem_cons, List.not_mem_nil, or_false] at h
  rcases h with rfl | rfl | rfl <;> rfl

theorem guard_known {h : Handler} {minimum : String} (hg : h.guard = .role minimum) : minimum ∈ roleHierarchy := by
  cases h <;> simp_all [Handler.guard, roleHierarchy]

/-- Outside development a token comes from a login with the secret. -/
theorem token_cases (hprod : settings.environment ≠ .development) {r : Request} {t : String}
    (h : respond py settings jwt r = .token t) :
    handlerOf r.method r.path = some .login ∧ loginRequest r.body = some ⟨"admin", settings.jwtSecret⟩ ∧
      ∃ j, jwt = some j ∧ t = j.encode ⟨"admin", "admin", ⌊r.now + settings.jwtExpireMinutes * 60⌋⟩
        settings.jwtSecret settings.jwtAlgorithm := by
  unfold respond at h
  split at h
  · cases h
  · rename_i handler hh
    split at h
    · split at h
      · cases h
      · split at h
        · unfold call at h
          split at h
          · split at h
            · cases h
            · rename_i body hbody
              unfold login at h
              split at h
              · rename_i hb
                simp only [Bool.and_eq_true, decide_eq_true_eq] at hb
                obtain ⟨username, password⟩ := body
                obtain ⟨rfl, rfl⟩ := hb
                refine ⟨hh, hbody, ?_⟩
                cases jwt with
                | none => simp [createToken, hprod] at h
                | some j => simpa [createToken, eq_comm] using h
              · cases h
          · cases h
        · cases h
    · unfold Body.unparsed at h
      split at h <;> cases h

theorem getCurrentUser_ok (hprod : settings.environment ≠ .development) {r : Request} {user : User} :
    getCurrentUser settings jwt r.now r.creds = .ok user ↔
      ∃ t j, r.creds = some t ∧ jwt = some j ∧ t ≠ "dev-token" ∧
        j.decode t settings.jwtSecret [settings.jwtAlgorithm] r.now = .ok user := by
  cases hc : r.creds with
  | none => simp [getCurrentUser, hprod]
  | some t =>
    simp only [getCurrentUser, verifyToken, hprod, if_false, Option.some.injEq]
    by_cases hdev : t = "dev-token"
    · simp [hdev]
    · cases jwt with
      | none => simp [hdev]
      | some j =>
        simp only [hdev, if_false, Option.some.injEq]
        cases hd : j.decode t settings.jwtSecret [settings.jwtAlgorithm] r.now <;> simp [Except.mapError, hd, hdev]

/-- Every refusal of `get_current_user` is a 401. -/
theorem getCurrentUser_error {r : Request} {e : HTTPException}
    (h : getCurrentUser settings jwt r.now r.creds = .error e) : e.status = 401 := by
  unfold getCurrentUser verifyToken at h
  split at h
  · split at h <;> cases h
    rfl
  · split at h
    · split at h <;> cases h
      rfl
    · split at h
      · cases h
        rfl
      · unfold Except.mapError at h
        split at h <;> cases h
        rfl

/-- Outside development: whom `get_current_user` lets in, and as whom. -/
theorem getCurrentUser_iff (hprod : settings.environment ≠ .development) {rs pre post : List Request} {r : Request}
    (hgenuine : Genuine py settings jwt rs) (hrs : rs = pre ++ r :: post) (user : User) :
    getCurrentUser settings jwt r.now r.creds = .ok user ↔
      user = adminUser ∧ ∃ r' ∈ pre, Covers py settings jwt r' r := by
  rw [getCurrentUser_ok hprod]
  constructor
  · rintro ⟨t, j, hcreds, hjwt, -, hdecode⟩
    obtain ⟨r', hr', htoken⟩ := hgenuine pre r post hrs t j user hcreds hjwt hdecode
    obtain ⟨hlogin, hbody, j', hjwt', ht⟩ := token_cases hprod htoken
    obtain rfl : j = j' := by simpa [hjwt] using hjwt'
    rw [ht, j.decode_encode] at hdecode
    split at hdecode
    · rename_i hexp
      obtain rfl := Except.ok.inj hdecode
      exact ⟨rfl, r', hr', hlogin, hbody, ⟨t, htoken, hcreds⟩, hexp⟩
    · cases hdecode
  · rintro ⟨rfl, r', hr', hlogin, hbody, ⟨t, htoken, hcreds⟩, hexp⟩
    obtain ⟨-, -, j, hjwt, ht⟩ := token_cases hprod htoken
    refine ⟨t, j, hcreds, hjwt, ?_, ?_⟩
    · rintro rfl
      have hdot := j.dotted ⟨"admin", "admin", ⌊r'.now + settings.jwtExpireMinutes * 60⌋⟩ settings.jwtSecret
        settings.jwtAlgorithm
      rw [← ht] at hdot
      exact absurd hdot (by decide)
    · rw [ht, j.decode_encode, if_pos hexp]
      rfl

/-- A guard that asks for a user or a role lets in whoever `get_current_user` finds, if the
role is the administrator's, and refuses where it refuses. -/
theorem letIn_guarded (settings : AuthSettings) (jwt : Option Jwt) (r : Request) {h : Handler}
    (hguard : h.guard ≠ .none) :
    (∀ sub, getCurrentUser settings jwt r.now r.creds = .ok ⟨sub, some "admin"⟩ →
      h.guard.letIn settings jwt r = .ok (some ⟨sub, some "admin"⟩)) ∧
    ∀ e, getCurrentUser settings jwt r.now r.creds = .error e → h.guard.letIn settings jwt r = .error e := by
  constructor
  · intro sub hok
    have hrole : ∀ minimum, h.guard = .role minimum → checkRole ⟨sub, some "admin"⟩ minimum = .ok () :=
      fun minimum hg => admin_passes minimum (guard_known hg) sub
    cases hg : h.guard with
    | none => exact absurd hg hguard
    | user => simp [Guard.letIn, hok, Except.map]
    | role minimum => simp [Guard.letIn, hok, hrole minimum hg, bind, Except.bind, pure, Except.pure]
  · intro e herror
    cases hg : h.guard with
    | none => exact absurd hg hguard
    | user => simp [Guard.letIn, herror, Except.map]
    | role minimum => simp [Guard.letIn, herror, bind, Except.bind]

theorem unparsed_ne_served (b : Body) (h : Handler) (user : Option User) : b.unparsed ≠ .served h user := by
  cases b <;> simp [Body.unparsed]

/-- A handler runs for the requests of its route. -/
theorem respond_served {r : Request} {h : Handler} {user : Option User}
    (hr : respond py settings jwt r = .served h user) : handlerOf r.method r.path = some h := by
  unfold respond at hr
  split at hr
  · cases hr
  · rename_i h' hh
    split at hr
    · split at hr
      · cases hr
      · split at hr
        · unfold call at hr
          split at hr
          · split at hr
            · cases hr
            · unfold login at hr
              split at hr
              · split at hr <;> cases hr
              · cases hr
          · obtain ⟨rfl, -⟩ := Response.served.inj hr
            exact hh
        · cases hr
    · exact absurd hr (unparsed_ne_served _ _ _)

/-- What is answered once the body is parsed. -/
theorem respond_parsed {r : Request} {h : Handler} (hh : handlerOf r.method r.path = some h)
    (hguard : h.guard ≠ .none) (hparses : h.parses r.body = true) :
    respond py settings jwt r = match h.guard.letIn settings jwt r with
      | .error e => .refused e
      | .ok user => if h.accepts py r then .served h user else .invalid := by
  have hcall (user : Option User) : call settings jwt r user h = .served h user := by
    cases h with
    | login => exact absurd rfl hguard
    | _ => rfl
  simp only [respond, hh, if_pos hparses, hcall]

/-- Outside development, in every sequence of requests with genuine tokens. -/
theorem access_controlled (py : Pydantic) (settings : AuthSettings) (jwt : Option Jwt) (hstarts : starts settings)
    (hprod : settings.environment ≠ .development) (rs : List Request) (hgenuine : Genuine py settings jwt rs)
    (pre post : List Request) (r : Request) (hrs : rs = pre ++ r :: post) (h : Handler)
    (hh : handlerOf r.method r.path = some h) (hguard : h.guard ≠ .none) :
    Controlled py settings jwt pre r h := by
  have hunparsed : ¬ h.parses r.body → respond py settings jwt r = r.body.unparsed := by
    intro hno
    simp only [respond, hh, if_neg hno]
  have hletIn := letIn_guarded settings jwt r hguard
  have hiff := getCurrentUser_iff hprod hgenuine hrs
  have hcovered (hparses : h.parses r.body = true) (hcovers : ∃ r' ∈ pre, Covers py settings jwt r' r) :
      respond py settings jwt r = if h.accepts py r then .served h (some adminUser) else .invalid := by
    rw [respond_parsed hh hguard hparses, hletIn.1 _ ((hiff adminUser).2 ⟨rfl, hcovers⟩)]
    rfl
  have hstranger (hparses : h.parses r.body = true) (hnone : ¬ ∃ r' ∈ pre, Covers py settings jwt r' r) :
      ∃ detail, respond py settings jwt r = .refused ⟨401, detail⟩ := by
    cases hu : getCurrentUser settings jwt r.now r.creds with
    | ok user => exact absurd ((hiff user).1 hu).2 hnone
    | error e =>
      obtain ⟨status, detail⟩ := e
      obtain rfl : status = 401 := getCurrentUser_error hu
      exact ⟨detail, by rw [respond_parsed hh hguard hparses, hletIn.2 _ hu]⟩
  refine ⟨fun user => ⟨fun hserved => ?_, ?_⟩, hunparsed, hstranger, ?_, ?_⟩
  · by_cases hparses : h.parses r.body = true
    · by_cases hcovers : ∃ r' ∈ pre, Covers py settings jwt r' r
      · rw [hcovered hparses hcovers] at hserved
        split at hserved
        · rename_i haccepts
          obtain rfl : some adminUser = user := (Response.served.inj hserved).2
          exact ⟨rfl, hparses, haccepts, hcovers⟩
        · cases hserved
      · obtain ⟨detail, hrefused⟩ := hstranger hparses hcovers
        rw [hrefused] at hserved
        cases hserved
    · rw [hunparsed hparses] at hserved
      exact absurd hserved (unparsed_ne_served _ _ _)
  · rintro ⟨rfl, hparses, haccepts, hcovers⟩
    rw [hcovered hparses hcovers, if_pos haccepts]
  · intro hparses hcovers hno
    rw [hcovered hparses hcovers, if_neg hno]
  · rintro r' - ⟨-, hbody, -⟩ hdefault
    have hsecret : settings.jwtSecret = "CHANGE_ME_IN_PRODUCTION" := by simpa [hbody] using hdefault
    simp [starts, hsecret, hprod] at hstarts

end

/-! ## A run -/

/-- A text, marked off. -/
def mark (s : List Char) : List Char := s.flatMap (fun c => ['+', c]) ++ ['.']

def unmark : List Char → List Char × List Char
  | '+' :: c :: cs => let (s, rest) := unmark cs; (c :: s, rest)
  | '.' :: cs => ([], cs)
  | cs => ([], cs)

theorem unmark_mark (s rest : List Char) : unmark (mark s ++ rest) = (s, rest) := by
  induction s with
  | nil => rfl
  | cons c cs ih =>
    have : mark (c :: cs) ++ rest = '+' :: c :: (mark cs ++ rest) := by simp [mark]
    rw [this, unmark, ih]

/-- Tokens that say their key. -/
def plainJwt : Jwt where
  encode p k _ := .ofList (mark p.sub.toList ++ (mark p.role.toList ++ (mark (.replicate p.exp.toNat '1') ++
    (mark (.replicate (-p.exp).toNat '1') ++ mark k.toList))))
  decode t k _ now :=
    let (sub, t) := unmark t.toList
    let (role, t) := unmark t
    let (up, t) := unmark t
    let (down, t) := unmark t
    if (unmark t).1 = k.toList then
      if now < ((up.length : Int) - down.length : Int) then .ok ⟨some (.ofList sub), some (.ofList role)⟩
      else .error "Signature has expired"
    else .error "Signature verification failed"
  dotted p k a := by simp [mark]
  decode_encode p k a now := by
    have hkey : (unmark (mark k.toList)).1 = k.toList := by
      have := unmark_mark k.toList []
      simp only [List.append_nil] at this
      rw [this]
    simp [unmark_mark, hkey]

def secretSettings : AuthSettings := { environment := .production, jwtSecret := "5a5e" }

def plainPydantic : Pydantic where
  int s := s.toInt?.isSome
  bool j := match j with
    | .bool _ => true
    | _ => false

def loggingIn : Request where
  now := 0
  method := .post
  path := ["api", "auth", "login"]
  body := .json (.obj [("username", .str "admin"), ("password", .str "5a5e")])

/-- The token `loggingIn` is answered with. -/
def adminToken : String := plainJwt.encode ⟨"admin", "admin", ⌊(0 : ℚ) + (1440 : Int) * 60⌋⟩ "5a5e" "HS256"

def creatingCamera : Request where
  now := 60
  method := .post
  path := ["api", "cameras"]
  creds := some adminToken
  body := .json (.obj [("id", .str "cam_2"), ("display_name", .str "Aisle 2"), ("enabled", .bool false)])

theorem respond_loggingIn : respond plainPydantic secretSettings (some plainJwt) loggingIn = .token adminToken := by
  have hh : handlerOf loggingIn.method loggingIn.path = some .login := by decide
  have haccepts : Handler.login.accepts plainPydantic loggingIn = true := by decide
  have hparses : Handler.login.parses loggingIn.body = true := rfl
  simp only [respond, hh, hparses, if_true]
  rw [show Handler.login.guard.letIn secretSettings (some plainJwt) loggingIn = .ok none from rfl]
  dsimp only
  rw [if_pos haccepts]
  rfl

/-- The token lets the camera be created. -/
theorem access_controlled_creatingCamera :
    respond plainPydantic secretSettings (some plainJwt) creatingCamera = .served .createCamera (some adminUser) := by
  have hgenuine : Genuine plainPydantic secretSettings (some plainJwt) [loggingIn, creatingCamera] := by
    intro pre r post hrs t j user hcreds hjwt hdecode
    match pre, hrs with
    | [], hrs =>
      obtain ⟨rfl, -⟩ := List.cons.inj hrs
      cases hcreds
    | [_], hrs =>
      obtain ⟨rfl, h⟩ := List.cons.inj hrs
      obtain ⟨rfl, -⟩ := List.cons.inj h
      obtain rfl : adminToken = t := Option.some.inj hcreds
      exact ⟨loggingIn, List.mem_cons_self, respond_loggingIn⟩
    | _ :: _ :: _, hrs => simp at hrs
  have hcovers : Covers plainPydantic secretSettings (some plainJwt) loggingIn creatingCamera :=
    ⟨by decide, by decide, ⟨adminToken, respond_loggingIn, rfl⟩,
      by norm_num [creatingCamera, loggingIn, secretSettings]⟩
  have hcontrolled := access_controlled plainPydantic secretSettings (some plainJwt) (by decide) (by decide)
    [loggingIn, creatingCamera] hgenuine [loggingIn] [] creatingCamera rfl .createCamera (by decide) (by decide)
  exact (hcontrolled.served _).2 ⟨rfl, rfl, by decide, loggingIn, List.mem_cons_self, hcovers⟩

end Netra.Gateway
