import Hysj.Api.TwoFactor
import Hysj.Base.Trail

set_option autoImplicit false

/- On what proof the second factor of a user changes. -/
namespace Hysj.Api

open Crypto Shared Auth Messaging Program

/-- The server, and the codes that were presented to it, each with its time. -/
structure FactorState where
  server : Server
  presented : List (Nat × String)

/-- A request to one of the endpoints that read or write the columns, or to another. A request to
set up goes with what it draws and whether its statement fails. -/
inductive FactorRequest where
  | account (request : AuthRequest)
  | setup (headers : HeaderMap) (chance : Chance)
  | verify (headers : HeaderMap) (request : TwoFactorVerifyRequest)
  | disable (headers : HeaderMap) (request : TwoFactorVerifyRequest)
  | other

/-- The code that a request carries, with the time. -/
def FactorRequest.carried (now : Nat) : FactorRequest → List (Nat × String)
  | .verify _ request => [(now, request.code)]
  | .disable _ request => [(now, request.code)]
  | _ => []

section

variable (jwt : Jwt) (argon2 : Argon2) (b64 : Base64Engine) (config : AppConfig) (totp : Totp)

def FactorState.step (m : FactorState) (request : FactorRequest) (m' : FactorState) : Prop :=
  m'.presented = m.presented ++ request.carried m.server.redis.now ∧
    match request with
    | .account request =>
        ∃ r, Runs Any (request.handle jwt argon2 b64 config).run m.server r m'.server
    | .setup headers chance =>
        ∃ r, Runs (Under fun c => c = chance)
          (fromRequestParts jwt config headers >>= setup2fa totp).run m.server r m'.server
    | .verify headers request =>
        ∃ r, Runs Any (fromRequestParts jwt config headers >>= fun auth =>
          verify2fa totp auth request).run m.server r m'.server
    | .disable headers request =>
        ∃ r, Runs Any (fromRequestParts jwt config headers >>= fun auth =>
          disable2fa totp auth request).run m.server r m'.server
    | .other => m'.server.secondFactors = m.server.secondFactors

/-- Among the codes is one that was right for the secret when it was presented. -/
def Shown (codes : List (Nat × String)) (secret : Bytes) : Prop :=
  ∃ shown ∈ codes, ValidCode totp shown.1 secret shown.2

/-- A user who is there before and after got a second factor only after a code for it was shown,
and lost or changed it only by a request that carries a code for it. -/
structure Justified (m : FactorState) (request : FactorRequest) (m' : FactorState) : Prop where
  enabled : ∀ u before after secret, m.server.secondFactor u = some before →
    m'.server.secondFactor u = some after → before.enabled = false → after.enabled = true →
    after.secret = some secret → Shown totp m'.presented secret
  left : ∀ u before after secret, m.server.secondFactor u = some before →
    m'.server.secondFactor u = some after → before.enabled = true → before.secret = some secret →
    ¬ (after.enabled = true ∧ after.secret = some secret) →
    Shown totp (request.carried m.server.redis.now) secret

/-- Whoever sets up draws the secret that is in use, or without one in use a secret for which a
code was shown. -/
def Proves (m : FactorState) (request : FactorRequest) (_ : FactorState) : Prop :=
  match request with
  | .setup headers chance =>
      ∀ auth factor qrUri, extract jwt config m.server.redis.now headers = .ok auth →
        chance.fault = none →
        generateTotpUri totp (totp.generateSecret chance.uuid) auth.username = some qrUri →
        m.server.secondFactor auth.userId = some factor →
        (factor.enabled = true → ∀ secret, factor.secret = some secret →
          secret = strBytes (totp.generateSecret chance.uuid)) ∧
        (factor.enabled = false →
          Shown totp m.presented (strBytes (totp.generateSecret chance.uuid)))
  | _ => True

end

section

variable {s s' : Server} {u v : Uuid} {jwt : Jwt} {argon2 : Argon2} {b64 : Base64Engine}
variable {config : AppConfig} {totp : Totp} {m m' : FactorState} {request : FactorRequest}

/-- Nobody who is there before and after has another second factor. -/
def Stable (s s' : Server) : Prop :=
  ∀ u before after, s.secondFactor u = some before → s'.secondFactor u = some after →
    after = before

theorem stable_of_same (same : s'.secondFactors = s.secondFactors) : Stable s s' := by
  intro u before after found found'
  rw [Server.secondFactor, same] at found'
  exact Option.some.inj (found'.symm.trans found)

theorem stable_of_append {factor : SecondFactor}
    (added : s'.secondFactors = s.secondFactors ++ [factor]) : Stable s s' := by
  intro u before after found found'
  rw [Server.secondFactor, added, List.find?_append] at found'
  rw [Server.secondFactor] at found
  rw [found] at found'
  exact (Option.some.inj found').symm

theorem stable_of_filter
    (removed : s'.secondFactors = s.secondFactors.filter fun factor => factor.userId ≠ u) :
    Stable s s' := by
  intro v before after found found'
  rw [Server.secondFactor, removed, List.find?_filter] at found'
  have other : v ≠ u := by
    have kept := List.find?_some found'
    simp only [decide_eq_true_eq] at kept
    exact fun is => kept.1 (kept.2.trans is)
  have same : (fun factor : SecondFactor => decide (decide (factor.userId ≠ u) = true ∧
      decide (factor.userId = v) = true)) = fun factor => decide (factor.userId = v) := by
    funext factor
    by_cases is : factor.userId = v
    · simp [is, other]
    · simp [is]
  rw [same] at found'
  exact Option.some.inj (found'.symm.trans found)

theorem secondFactor_update {g : SecondFactor → SecondFactor} (keeps : ∀ f, (g f).userId = f.userId)
    (updated : s'.secondFactors = s.secondFactors.map fun f => if f.userId = u then g f else f) :
    s'.secondFactor v = (s.secondFactor v).map fun f => if v = u then g f else f := by
  have same : ((fun f : SecondFactor => decide (f.userId = v)) ∘
      fun f => if f.userId = u then g f else f) = fun f => decide (f.userId = v) := by
    funext f
    by_cases is : f.userId = u
    · simp [is, keeps]
    · simp [is]
  rw [Server.secondFactor, updated, List.find?_map, same, Server.secondFactor]
  cases found : s.secondFactors.find? fun f => decide (f.userId = v) with
  | none => rfl
  | some f =>
      have is : f.userId = v := by simpa using List.find?_some found
      simp [is]

theorem justified_of_stable (stable : Stable m.server m'.server) : Justified totp m request m' := by
  constructor
  · intro u before after secret found found' off on _
    rw [stable u before after found found', off] at on
    cases on
  · intro u before after secret found found' on held changed
    rw [stable u before after found found'] at changed
    exact (changed ⟨on, held⟩).elim

/-- Requests about accounts, tokens and devices leave the second factor of all who stay. -/
theorem stable_account {request : AuthRequest} {r : Except HysjError (Option LoginResponse)}
    (run : Runs Any (request.handle jwt argon2 b64 config).run s r s') : Stable s s' := by
  rcases factors_account run with same | ⟨id, -, added⟩ | ⟨token, -, u, d, -, removed⟩
  · exact stable_of_same same
  · exact stable_of_append added
  · exact stable_of_filter removed

/-- A request to disable a second factor carries a code for it, or changes nothing. -/
theorem justified_disable {headers : HeaderMap} {request : TwoFactorVerifyRequest}
    (stepped : FactorState.step jwt argon2 b64 config totp m (.disable headers request) m') :
    Justified totp m (.disable headers request) m' := by
  obtain ⟨-, r, run⟩ := stepped
  rcases runs_authorised run with ⟨-, same⟩ | ⟨token, -, auth, -, run⟩
  · apply justified_of_stable
    rw [← same]
    exact stable_of_same rfl
  rcases runs_disable2fa run with same | ⟨done, factor, secret, found, held, right⟩
  · apply justified_of_stable
    rw [same]
    exact stable_of_same rfl
  have columns : m'.server.secondFactors = m.server.secondFactors.map fun f =>
      if f.userId = auth.userId then ⟨f.userId, false, none⟩ else f := by
    rw [done]
    exact secondFactors_disable2fa
  have updated (v : Uuid) := secondFactor_update (v := v) (g := fun f => ⟨f.userId, false, none⟩)
    (fun _ => rfl) columns
  constructor
  · intro u before after secret' found' reached off on _
    rw [updated, found'] at reached
    obtain rfl := Option.some.inj reached
    dsimp only at on
    split at on
    · cases on
    · rw [off] at on
      cases on
  · intro u before after secret' found' reached on held' changed
    rw [updated, found'] at reached
    obtain rfl := Option.some.inj reached
    dsimp only at changed
    by_cases own : u = auth.userId
    · subst own
      rw [found] at found'
      obtain rfl := Option.some.inj found'
      rw [held] at held'
      obtain rfl := Option.some.inj held'
      exact ⟨_, List.mem_singleton.mpr rfl, right⟩
    · rw [if_neg own] at changed
      exact (changed ⟨on, held'⟩).elim

/-- A second factor that is set up without a code is justified exactly if it is the one in use, or
there is none in use and a code for it was shown. -/
theorem justified_enable {headers : HeaderMap} {chance : Chance} {secret : Bytes}
    (codes : m'.presented = m.presented)
    (columns : m'.server.secondFactors = m.server.secondFactors.map fun f =>
      if f.userId = u then ⟨f.userId, true, some secret⟩ else f) :
    Justified totp m (.setup headers chance) m' ↔
      ∀ factor, m.server.secondFactor u = some factor →
        (factor.enabled = true → ∀ held, factor.secret = some held → held = secret) ∧
        (factor.enabled = false → Shown totp m.presented secret) := by
  have updated (v : Uuid) :=
    secondFactor_update (v := v) (g := fun f => ⟨f.userId, true, some secret⟩)
    (fun _ => rfl) columns
  constructor
  · intro justified factor found
    have reached := updated u
    rw [found, Option.map_some, if_pos rfl] at reached
    constructor
    · intro on held is
      by_contra other
      obtain ⟨shown, member, -⟩ := justified.left _ _ _ held found reached on is fun same =>
        other (Option.some.inj same.2).symm
      cases member
    · intro off
      have shown := justified.enabled _ _ _ _ found reached off rfl rfl
      rw [codes] at shown
      exact shown
  · intro proven
    constructor
    · intro v before after held found reached off on is
      rw [updated, found] at reached
      obtain rfl := Option.some.inj reached
      dsimp only at on is
      by_cases own : v = u
      · subst own
        rw [if_pos rfl] at is
        obtain rfl := Option.some.inj is
        rw [codes]
        exact (proven before found).2 off
      · rw [if_neg own, off] at on
        cases on
    · intro v before after held found reached on is changed
      rw [updated, found] at reached
      obtain rfl := Option.some.inj reached
      dsimp only at changed
      by_cases own : v = u
      · subst own
        rw [if_pos rfl] at changed
        have same := (proven before found).1 on held is
        exact (changed ⟨rfl, congrArg some same.symm⟩).elim
      · rw [if_neg own] at changed
        exact (changed ⟨on, is⟩).elim

/-- A request to set up is justified exactly if what it draws was proven. -/
theorem justified_setup {headers : HeaderMap} {chance : Chance}
    (stepped : FactorState.step jwt argon2 b64 config totp m (.setup headers chance) m') :
    Justified totp m (.setup headers chance) m' ↔
    Proves jwt config totp m (.setup headers chance) m' := by
  obtain ⟨codes, r, run⟩ := stepped
  have possible : ∃ c, (fun c => c = chance) c := ⟨chance, rfl⟩
  rcases (under_authorised possible).mp run with ⟨auth, extracted, run⟩ | ⟨e, refused, -, same⟩
  swap
  · apply iff_of_true
    · apply justified_of_stable
      rw [← same]
      exact stable_of_same rfl
    · intro auth factor qrUri extracted
      rw [refused] at extracted
      cases extracted
  obtain ⟨⟨qrUri, made⟩, done⟩ := under_setup2fa run
  by_cases fails : chance.fault = none
  swap
  · apply iff_of_true
    · apply justified_of_stable
      rw [done, if_neg fails]
      exact stable_of_same rfl
    · intro auth factor qrUri _ clean
      exact (fails clean).elim
  rw [if_pos fails] at done
  have columns : m'.server.secondFactors = m.server.secondFactors.map fun f =>
      if f.userId = auth.userId then
        ⟨f.userId, true, some (strBytes (totp.generateSecret chance.uuid))⟩ else f := by
    rw [done]
    exact secondFactors_enable2fa _
  rw [justified_enable (codes.trans (List.append_nil _)) columns]
  constructor
  · intro proven auth' factor qrUri' extracted' _ _ found
    rw [extracted] at extracted'
    obtain rfl := Except.ok.inj extracted'
    exact proven factor found
  · intro proves factor found
    exact proves auth factor qrUri extracted fails made found

theorem justified_iff (stepped : FactorState.step jwt argon2 b64 config totp m request m') :
    Justified totp m request m' ↔ Proves jwt config totp m request m' := by
  cases request with
  | account request =>
      obtain ⟨-, r, run⟩ := stepped
      exact iff_of_true (justified_of_stable (stable_account run)) trivial
  | setup headers chance => exact justified_setup stepped
  | verify headers request =>
      obtain ⟨-, r, run⟩ := stepped
      refine iff_of_true (justified_of_stable ?_) trivial
      rcases runs_authorised run with ⟨-, same⟩ | ⟨token, -, auth, -, run⟩
      · rw [← same]
        exact stable_of_same rfl
      · rw [← runs_verify2fa run]
        exact stable_of_same rfl
  | disable headers request => exact iff_of_true (justified_disable stepped) trivial
  | other => exact iff_of_true (justified_of_stable (stable_of_same stepped.2)) trivial

end

/-- In a run every change of a second factor is justified exactly if every request to set up
draws a secret that is already proven. -/
theorem factors_justified_iff (jwt : Jwt) (argon2 : Argon2)
    (b64 : Base64Engine) (config : AppConfig)
    (totp : Totp) (first m : FactorState) (steps : List (FactorState × FactorRequest × FactorState))
    (run : Trail (FactorState.step jwt argon2 b64 config totp) first steps m) :
    (∀ x ∈ steps, Justified totp x.1 x.2.1 x.2.2) ↔
      ∀ x ∈ steps, Proves jwt config totp x.1 x.2.1 x.2.2 := by
  constructor
  · intro justified x member
    exact (justified_iff (run.step_of_mem member)).mp (justified x member)
  · intro proves x member
    exact (justified_iff (run.step_of_mem member)).mpr (proves x member)

/-- The first request of Alice. -/
def aliceRegisters : FactorRequest :=
  .account (.register (fun _ => none) (registration "alice" "+4711111111" "password1"))

/-- Whoever holds a token of a user can set up any secret that the endpoint may draw. -/
theorem setup_taken {jwt : Jwt} (argon2 : Argon2) (b64 : Base64Engine) {config : AppConfig}
    (totp : Totp) {m : FactorState} {headers : HeaderMap} (chance : Chance) {auth : AuthUser}
    {factor : SecondFactor} {qrUri : String}
    (extracted : extract jwt config m.server.redis.now headers = .ok auth)
    (clean : chance.fault = none) (found : m.server.secondFactor auth.userId = some factor)
    (made : generateTotpUri totp (totp.generateSecret chance.uuid) auth.username = some qrUri) :
    let secret := strBytes (totp.generateSecret chance.uuid)
    let m' : FactorState := ⟨m.server.after (Db.enable2fa auth.userId secret), m.presented⟩
    FactorState.step jwt argon2 b64 config totp m (.setup headers chance) m' ∧
      m'.server.secondFactor auth.userId = some ⟨factor.userId, true, some secret⟩ := by
  intro secret m'
  constructor
  · exact ⟨(List.append_nil _).symm, _, setup2fa_runs rfl clean extracted found made⟩
  · have columns : m'.server.secondFactors = m.server.secondFactors.map fun f =>
        if f.userId = auth.userId then ⟨f.userId, true, some secret⟩ else f :=
      secondFactors_enable2fa secret
    rw [secondFactor_update (g := fun f => ⟨f.userId, true, some secret⟩) (fun _ => rfl) columns,
      found, Option.map_some, if_pos rfl]

theorem code_shown {jwt : Jwt} (argon2 : Argon2) (b64 : Base64Engine) {config : AppConfig}
    (totp : Totp) {m : FactorState} {headers : HeaderMap} (request : TwoFactorVerifyRequest)
    {auth : AuthUser} {factor : SecondFactor}
    (extracted : extract jwt config m.server.redis.now headers = .ok auth)
    (found : m.server.secondFactor auth.userId = some factor) (unset : factor.secret = none) :
    FactorState.step jwt argon2 b64 config totp m (.verify headers request)
      ⟨m.server, m.presented ++ [(m.server.redis.now, request.code)]⟩ := by
  refine ⟨rfl, .error (.validationError "2FA not set up"), ?_⟩
  apply (under_authorised ⟨{}, trivial⟩).mpr
  refine Or.inl ⟨auth, extracted, runs_run_bind.mpr (Or.inr ⟨_, rfl, ?_⟩)⟩
  exact checkCode_unset found unset

/-- Whoever holds a token of a user and a code can disable the second factor. -/
theorem disable_taken {jwt : Jwt} (argon2 : Argon2) (b64 : Base64Engine) {config : AppConfig}
    {totp : Totp} {m : FactorState} {headers : HeaderMap} (request : TwoFactorVerifyRequest)
    {auth : AuthUser} {factor : SecondFactor} {secret : Bytes}
    (extracted : extract jwt config m.server.redis.now headers = .ok auth)
    (found : m.server.secondFactor auth.userId = some factor) (held : factor.secret = some secret)
    (right : ValidCode totp m.server.redis.now secret request.code) :
    FactorState.step jwt argon2 b64 config totp m (.disable headers request)
      ⟨m.server.after (Db.disable2fa auth.userId),
        m.presented ++ [(m.server.redis.now, request.code)]⟩ := by
  refine ⟨rfl, .ok (.obj [("status", .str "2fa_disabled")]), ?_⟩
  apply (under_authorised ⟨{}, trivial⟩).mpr
  refine Or.inl ⟨auth, extracted, ?_⟩
  refine runs_run_bind_ok.mpr ⟨(), _, checkCode_right found held right, ?_⟩
  refine runs_run_bind_ok.mpr ⟨(), _, runs_adapt_ok.mpr ?_, runs_run_pure.mpr ⟨rfl, rfl⟩⟩
  apply runs_query_ok.mpr
  simp [Db.disable2fa, Db.updateUser, any_of_secondFactor found, Server.after]

/-- Alice registers, shows a code for the secret that is drawn next, has it set up and disables it
with another. -/
theorem factors_justified_iff_shown : ∃ m₁ m₂ m₃ m₄ headers request chance,
    Trail (FactorState.step .sample .sample .sample ⟨none, "secret"⟩ .sample) ⟨.start 0 {}, []⟩
      [(⟨.start 0 {}, []⟩, aliceRegisters, m₁), (m₁, .verify headers request, m₂),
        (m₂, .setup headers chance, m₃), (m₃, .disable headers request, m₄)] m₄ ∧
    Justified .sample m₁ (.verify headers request) m₂ ∧
    Justified .sample m₂ (.setup headers chance) m₃ ∧
    Justified .sample m₃ (.disable headers request) m₄ ∧
    m₂.server.secondFactors.map (fun f => f.enabled) = [false] ∧
    m₃.server.secondFactors.map (fun f => f.enabled) = [true] ∧
    m₄.server.secondFactors.map (fun f => f.enabled) = [false] := by
  obtain ⟨response, s, ran⟩ : ∃ response s, Runs Any (register .sample .sample .sample
      ⟨none, "secret"⟩ (fun _ => none) (registration "alice" "+4711111111" "password1")).run
      (.start 0 {}) (.ok response) s := ⟨_, _, runs_of_exec (may_any (drawing 1)) rfl⟩
  obtain ⟨auth, extracted, added⟩ := extract_of_registered Jwt.sample_lawful ran
  have found : s.secondFactor auth.userId = some ⟨auth.userId, false, none⟩ := by
    rw [Server.secondFactor, added]
    exact List.find?_cons_of_pos (decide_eq_true rfl)
  have registered : FactorState.step .sample .sample .sample ⟨none, "secret"⟩ .sample
      ⟨.start 0 {}, []⟩ aliceRegisters ⟨s, []⟩ :=
    ⟨rfl, _, runs_run_bind_ok.mpr ⟨_, _, ran, runs_run_pure.mpr ⟨rfl, rfl⟩⟩⟩
  have shown := code_shown (m := ⟨s, []⟩) .sample .sample .sample
    ⟨Uuid.display (.replicate 16 2)⟩ extracted found rfl
  obtain ⟨setup, found'⟩ := setup_taken (m := ⟨s, [(s.redis.now, Uuid.display (.replicate 16 2))]⟩)
    .sample .sample .sample { uuid := .replicate 16 2 } extracted rfl found rfl
  have right : ValidCode .sample s.redis.now (strBytes (Uuid.display (.replicate 16 2)))
      (Uuid.display (.replicate 16 2)) := ⟨_, fromUtf8_strBytes _, rfl⟩
  have disabled := disable_taken (m := ⟨s.after (Db.enable2fa auth.userId _), _⟩) .sample .sample
    ⟨Uuid.display (.replicate 16 2)⟩ extracted found' rfl right
  have run := (((Trail.start.next registered).next shown).next setup).next disabled
  have proven (m : FactorState) : Proves .sample ⟨none, "secret"⟩ .sample
      ⟨s, [(s.redis.now, Uuid.display (.replicate 16 2))]⟩
      (.setup (fun _ => some ("Bearer " ++ response.accessToken))
        { uuid := .replicate 16 2 }) m := by
    intro auth' factor qrUri extracted' _ _ there
    obtain rfl := Except.ok.inj (extracted.symm.trans extracted')
    obtain rfl := Option.some.inj (found.symm.trans there)
    exact ⟨fun on => absurd on Bool.false_ne_true, fun _ => ⟨_, List.mem_cons_self, right⟩⟩
  have justified := factors_justified_iff .sample .sample .sample ⟨none, "secret"⟩ .sample _ _ _ run
  simp only [List.nil_append, List.cons_append, List.forall_mem_cons] at justified
  have justified := justified.mpr ⟨trivial, trivial, proven _, trivial, List.forall_mem_nil _⟩
  obtain ⟨-, one, two, three, -⟩ := justified
  refine ⟨_, _, _, _, _, _, _, run, one, two, three, ?_, ?_, ?_⟩
  · rw [added]
    rfl
  · rw [secondFactors_enable2fa, added]
    simp [Server.secondFactors, Server.start]
  · rw [secondFactors_disable2fa, secondFactors_enable2fa, added]
    simp [Server.secondFactors, Server.start]

/-- Alice registers. With her token, and no code, one secret is set up and then another. -/
theorem secrets_taken : ∃ m₁ m₂ m₃ headers first second,
    Trail (FactorState.step .sample .sample .sample ⟨none, "secret"⟩ .sample) ⟨.start 0 {}, []⟩
      [(⟨.start 0 {}, []⟩, aliceRegisters, m₁), (m₁, .setup headers first, m₂),
        (m₂, .setup headers second, m₃)] m₃ ∧
    ¬ Justified .sample m₁ (.setup headers first) m₂ ∧
    ¬ Justified .sample m₂ (.setup headers second) m₃ := by
  obtain ⟨response, s, ran⟩ : ∃ response s, Runs Any (register .sample .sample .sample
      ⟨none, "secret"⟩ (fun _ => none) (registration "alice" "+4711111111" "password1")).run
      (.start 0 {}) (.ok response) s := ⟨_, _, runs_of_exec (may_any (drawing 1)) rfl⟩
  obtain ⟨auth, extracted, added⟩ := extract_of_registered Jwt.sample_lawful ran
  have found : s.secondFactor auth.userId = some ⟨auth.userId, false, none⟩ := by
    rw [Server.secondFactor, added]
    exact List.find?_cons_of_pos (decide_eq_true rfl)
  have registered : FactorState.step .sample .sample .sample ⟨none, "secret"⟩ .sample
      ⟨.start 0 {}, []⟩ aliceRegisters ⟨s, []⟩ :=
    ⟨rfl, _, runs_run_bind_ok.mpr ⟨_, _, ran, runs_run_pure.mpr ⟨rfl, rfl⟩⟩⟩
  obtain ⟨first, found'⟩ := setup_taken (m := ⟨s, []⟩) .sample .sample .sample
    { uuid := .replicate 16 2 } extracted rfl found rfl
  obtain ⟨second, -⟩ := setup_taken .sample .sample .sample { uuid := .replicate 16 3 }
    extracted rfl found' rfl
  refine ⟨_, _, _, _, _, _, ((Trail.start.next registered).next first).next second, ?_, ?_⟩
  · intro justified
    obtain ⟨shown, member, -⟩ :=
      ((justified_setup first).mp justified _ _ _ extracted rfl rfl found).2 rfl
    cases member
  · intro justified
    have same := ((justified_setup second).mp justified _ _ _ extracted rfl rfl found').1 rfl _ rfl
    revert same
    decide

end Hysj.Api
