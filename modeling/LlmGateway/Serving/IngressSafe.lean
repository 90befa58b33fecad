import LlmGateway.Serving.Arrivals

/-! What holds of the inference route in every interleaving: who is served, with what, and how often. -/
namespace LlmGateway.Serving
open Lib Auth
open Audit (AuthAuditEvent)
open RateLimit (RateLimitDecision)

section
variable {L W ρ E : Type} (app : Application L W ρ E)

/-- The header presents a credential that is verified to be the principal's. -/
def Verified (request : HttpRequest) (credentials : Credentials) (principal : ScopedPrincipal) : Prop :=
  ∃ header credential, request.authorization = some header ∧ credentialOf header = some credential ∧
    app.authenticate credentials credential = .ok principal

/-- The record of a principal let in. -/
def Admits (event : AuthAuditEvent) (principal : ScopedPrincipal) : Prop :=
  event.action = "request.authenticated" ∧ event.result = "success" ∧
    event.organizationId = some principal.organizationId ∧ event.subjectId = some principal.subjectId

namespace Connection
variable (connection : Connection W ρ E)

/-- It presented a credential that was then verified to be the principal's. -/
def VerifiedAs (principal : ScopedPrincipal) : Prop :=
  ∃ credentials, connection.credentials = some credentials ∧ Verified app connection.request credentials principal

/-- The limiter allowed it. -/
def Allowed (now : ℚ) (decision : RateLimitDecision) : Prop :=
  connection.asked = some (now, some decision) ∧ decision.allowed = true

/-- It was verified and allowed, and its body is accepted. -/
structure Entitled : Prop where
  verified : ∃ principal, connection.VerifiedAs app principal
  allowed : ∃ now decision, connection.Allowed now decision
  accepted : connection.request.body ≠ none

/-- It is with the service, or answered. -/
def Passed : Prop :=
  (∃ decision rest, connection.progress = .serving decision rest) ∨ ∃ answered, connection.progress = .answered answered

end Connection

/-- A call was given to the service for a principal that was verified, recorded and allowed, and as its own. -/
structure Given (s : Ingress L W ρ E) (h : Handled) (connection : Connection W ρ E) (decision : RateLimitDecision)
    (body : InferenceBody) : Prop where
  verified : connection.VerifiedAs app h.principal
  recorded : ∃ event ∈ s.audit, Admits event h.principal
  allowed : connection.Allowed h.decidedAt decision
  decided : (h.connection, h.principal.organizationId, h.decidedAt, decision) ∈ s.acquired
  accepted : connection.request.body = some body
  own : h.call = infer h.principal connection.request.requestId body

/-- What answers a call: something the service may come to on it, whatever the others do meanwhile. -/
def Settles (h : Handled) (connection : Connection W ρ E) (decision : RateLimitDecision) (answered : Answered) : Prop :=
  ∃ reply, (app.handling h.call).Yields reply ∧
    answered = Ingress.advertise decision (translate connection.request.requestId reply)

/-- Requests that arrived are there, and answered once at most. The route gives the service the calls of those that
were verified and allowed and whose body is accepted, of all of them and each once, and answers the others; and the
calls are answered as the service replied. -/
structure Proper (steps : List IngressStep) (s : Ingress L W ρ E) : Prop where
  arrived : ∀ c request, .arrive c request ∈ steps → ∃ connection, s.connections c = some connection
  genuine : ∀ c connection, s.connections c = some connection → .arrive c connection.request ∈ steps
  once : (s.answers.map Prod.fst).Nodup
  answered : ∀ c answered, (c, answered) ∈ s.answers ↔
    ∃ connection, s.connections c = some connection ∧ connection.progress = .answered answered
  routed : ∀ c connection admitted, s.connections c = some connection → connection.progress = .letIn admitted →
    ∃ progress, (s.step app (.advance c .route)).connections c = some { connection with progress } ∧
      ({ connection with progress } : Connection W ρ E).Passed
  handledOnce : (s.handled.map (·.connection)).Nodup
  handled_iff : ∀ c, c ∈ s.handled.map (·.connection) ↔
    ∃ connection, s.connections c = some connection ∧ connection.Passed ∧ connection.Entitled app
  handled : ∀ h ∈ s.handled, ∃ connection decision body, s.connections h.connection = some connection ∧
    Given app s h connection decision body ∧
    ∀ answered, connection.progress = .answered answered → Settles app h connection decision answered

/-! ### The invariant -/

/-- A connection has come so far for good reasons. -/
def Fits (s : Ingress L W ρ E) (c : Nat) (connection : Connection W ρ E) : Prop :=
  match connection.progress with
  | .arrived => c ∉ s.handled.map (·.connection)
  | .authenticated principal => c ∉ s.handled.map (·.connection) ∧ connection.VerifiedAs app principal ∧
      ∃ event ∈ s.audit, Admits event principal
  | .letIn none => c ∉ s.handled.map (·.connection) ∧ ∀ principal, ¬ connection.VerifiedAs app principal
  | .letIn (some (principal, now, decision)) => c ∉ s.handled.map (·.connection) ∧
      connection.VerifiedAs app principal ∧ (∃ event ∈ s.audit, Admits event principal) ∧
      connection.Allowed now decision ∧ (c, principal.organizationId, now, decision) ∈ s.acquired
  | .serving decision rest => ∃ h ∈ s.handled, h.connection = c ∧ (∃ body, Given app s h connection decision body) ∧
      ∀ reply, rest.Yields reply → (app.handling h.call).Yields reply
  | .answered answered =>
      (∃ h ∈ s.handled, h.connection = c ∧ ∃ decision body, Given app s h connection decision body ∧
        Settles app h connection decision answered) ∨
      (c ∉ s.handled.map (·.connection) ∧ ¬ connection.Entitled app)

/-- The answers are those of the connections that are answered, one for each. -/
structure AnswersOf (connections : Nat → Option (Connection W ρ E)) (answers : List (Nat × Answered)) : Prop where
  once : (answers.map Prod.fst).Nodup
  answered : ∀ c answered, (c, answered) ∈ answers ↔
    ∃ connection, connections c = some connection ∧ connection.progress = .answered answered

structure Sound (steps : List IngressStep) (s : Ingress L W ρ E) : Prop where
  arrived : ∀ c request, .arrive c request ∈ steps → ∃ connection, s.connections c = some connection
  genuine : ∀ c connection, s.connections c = some connection → .arrive c connection.request ∈ steps
  answers : AnswersOf s.connections s.answers
  handledOnce : (s.handled.map (·.connection)).Nodup
  known : ∀ h ∈ s.handled, ∃ connection, s.connections h.connection = some connection
  fits : ∀ c connection, s.connections c = some connection → Fits app s c connection

section
variable {app} {steps later : List IngressStep} {s s' : Ingress L W ρ E} {c : Nat} {connection connection' : Connection W ρ E}
  {h : Handled} {decision : RateLimitDecision} {body : InferenceBody} {principal : ScopedPrincipal}

theorem Given.entitled (given : Given app s h connection decision body) : connection.Entitled app where
  verified := ⟨_, given.verified⟩
  allowed := ⟨_, _, given.allowed⟩
  accepted none_ := by cases given.accepted.symm.trans none_

theorem Given.mono (given : Given app s h connection decision body) (audit : s.audit ⊆ s'.audit)
    (acquired : s.acquired ⊆ s'.acquired) : Given app s' h connection decision body := by
  obtain ⟨event, there, admits⟩ := given.recorded
  exact { given with recorded := ⟨event, audit there, admits⟩, decided := acquired given.decided }

/-- The records may grow, as long as the connection's own call is not among what is new. -/
theorem Fits.mono (fits : Fits app s c connection) (audit : s.audit ⊆ s'.audit) (acquired : s.acquired ⊆ s'.acquired)
    (handled : s.handled ⊆ s'.handled)
    (same : c ∈ s'.handled.map (·.connection) → c ∈ s.handled.map (·.connection)) : Fits app s' c connection := by
  obtain ⟨request, credentials, asked, progress⟩ := connection
  cases progress with
  | arrived => exact fun new => fits (same new)
  | authenticated principal =>
    obtain ⟨unhandled, verified, event, there, admits⟩ := fits
    exact ⟨fun new => unhandled (same new), verified, event, audit there, admits⟩
  | letIn admitted =>
    cases admitted with
    | none => exact ⟨fun new => fits.1 (same new), fits.2⟩
    | some admitted =>
      obtain ⟨unhandled, verified, ⟨event, there, admits⟩, allowed, decided⟩ := fits
      exact ⟨fun new => unhandled (same new), verified, ⟨event, audit there, admits⟩, allowed, acquired decided⟩
  | serving decision rest =>
    obtain ⟨h, there, own, ⟨body, given⟩, yields⟩ := fits
    exact ⟨h, handled there, own, ⟨body, given.mono audit acquired⟩, yields⟩
  | answered answered =>
    rcases fits with ⟨h, there, own, decision, body, given, settles⟩ | ⟨unhandled, unentitled⟩
    · exact .inl ⟨h, handled there, own, decision, body, given.mono audit acquired, settles⟩
    · exact .inr ⟨fun new => unhandled (same new), unentitled⟩

section
variable {connections : Nat → Option (Connection W ρ E)} {answers : List (Nat × Answered)} {answered : Answered}

theorem AnswersOf.keep (h : AnswersOf connections answers) (unanswered : ∀ answered, (c, answered) ∉ answers)
    (open_ : ∀ answered, connection.progress ≠ .answered answered) :
    AnswersOf (Function.update connections c (some connection)) answers := by
  refine ⟨h.once, fun c' answered => ?_⟩
  by_cases ne : c' = c
  · subst ne
    rw [Function.update_self]
    refine iff_of_false (unanswered answered) ?_
    rintro ⟨_, ⟨⟩, closed⟩
    exact open_ answered closed
  · rw [Function.update_of_ne ne]
    exact h.answered c' answered

theorem AnswersOf.add (h : AnswersOf connections answers) (unanswered : ∀ answered, (c, answered) ∉ answers)
    (progress : connection.progress = .answered answered) :
    AnswersOf (Function.update connections c (some connection)) (answers ++ [(c, answered)]) := by
  constructor
  · rw [List.map_append]
    refine List.nodup_append_comm.mp (List.nodup_cons.mpr ⟨?_, h.once⟩)
    intro again
    obtain ⟨⟨_, before⟩, there, rfl⟩ := List.mem_map.mp again
    exact unanswered before there
  · intro c' given
    by_cases ne : c' = c
    · subst ne
      rw [Function.update_self, List.mem_append, or_iff_right (unanswered given), List.mem_singleton]
      constructor
      · rintro ⟨⟩
        exact ⟨connection, rfl, progress⟩
      · rintro ⟨_, ⟨⟩, closed⟩
        rw [progress] at closed
        cases closed
        rfl
    · rw [Function.update_of_ne ne, ← h.answered c' given, List.mem_append, or_iff_left]
      intro new
      exact ne (Prod.mk.inj (List.mem_singleton.mp new)).1

end

/-- A connection gets on. It was not answered before, and it may be answered now; its call may be given to the
service, if it was not before. -/
theorem Sound.update (sound : Sound app steps s) (past : steps ⊆ later)
    (opened : ∀ c' request, .arrive c' request ∈ later → .arrive c' request ∈ steps ∨ c' = c)
    (connections : s'.connections = Function.update s.connections c (some connection))
    (arrives : .arrive c connection.request ∈ later) (unanswered : ∀ answered, (c, answered) ∉ s.answers)
    (answers : s'.answers = s.answers ∧ (∀ answered, connection.progress ≠ .answered answered) ∨
      ∃ answered, connection.progress = .answered answered ∧ s'.answers = s.answers ++ [(c, answered)])
    (audit : s.audit ⊆ s'.audit) (acquired : s.acquired ⊆ s'.acquired)
    (handled : s'.handled = s.handled ∨
      c ∉ s.handled.map (·.connection) ∧ ∃ h, h.connection = c ∧ s'.handled = s.handled ++ [h])
    (fits : Fits app s' c connection) : Sound app later s' := by
  have own : s'.connections c = some connection := by rw [connections, Function.update_self]
  have other : ∀ {c'}, c' ≠ c → s'.connections c' = s.connections c' := fun ne => by
    rw [connections, Function.update_of_ne ne]
  have kept : ∀ c' connection', s.connections c' = some connection' → ∃ connection', s'.connections c' = some connection' := by
    intro c' connection' there
    by_cases ne : c' = c
    · exact ⟨connection, ne ▸ own⟩
    · exact ⟨connection', (other ne).trans there⟩
  refine ⟨?_, ?_, ?_, ?_, ?_, ?_⟩
  · intro c' request there
    rcases opened c' request there with before | rfl
    · obtain ⟨connection', there⟩ := sound.arrived c' request before
      exact kept c' connection' there
    · exact ⟨connection, own⟩
  · intro c' connection' there
    by_cases ne : c' = c
    · subst ne
      obtain rfl := Option.some.inj (own.symm.trans there)
      exact arrives
    · exact past (sound.genuine c' connection' ((other ne).symm.trans there))
  · rcases answers with ⟨same, open_⟩ | ⟨answered, progress, more⟩
    · rw [connections, same]
      exact sound.answers.keep unanswered open_
    · rw [connections, more]
      exact sound.answers.add unanswered progress
  · rcases handled with same | ⟨unhandled, h, rfl, more⟩
    · rw [same]
      exact sound.handledOnce
    · rw [more, List.map_append]
      exact List.nodup_append_comm.mp (List.nodup_cons.mpr ⟨unhandled, sound.handledOnce⟩)
  · intro h there
    have before : h ∈ s.handled ∨ h.connection = c := by
      rcases handled with same | ⟨-, h', own', more⟩
      · exact .inl (same ▸ there)
      · rw [more] at there
        refine (List.mem_append.mp there).imp_right fun new => ?_
        rw [List.mem_singleton.mp new]
        exact own'
    rcases before with before | rfl
    · obtain ⟨connection', there⟩ := sound.known h before
      exact kept _ connection' there
    · exact ⟨connection, own⟩
  · intro c' connection' there
    by_cases ne : c' = c
    · subst ne
      obtain rfl := Option.some.inj (own.symm.trans there)
      exact fits
    · refine (sound.fits c' connection' ((other ne).symm.trans there)).mono audit acquired ?_ ?_
      · rcases handled with same | ⟨-, h, -, more⟩
        · rw [same]
          exact fun _ h => h
        · rw [more]
          exact List.subset_append_left _ _
      · rcases handled with same | ⟨-, h, own', more⟩
        · rw [same]
          exact id
        · rw [more, List.map_append, List.mem_append]
          rintro (there | new)
          · exact there
          · exact absurd ((List.mem_singleton.mp new).trans own') ne

/-- What has not been answered is not among the answers. -/
theorem Sound.unanswered (sound : Sound app steps s) (there : s.connections c = some connection)
    (open_ : ∀ answered, connection.progress ≠ .answered answered) (answered : Answered) : (c, answered) ∉ s.answers := by
  rw [sound.answers.answered, there]
  rintro ⟨_, ⟨⟩, closed⟩
  exact open_ answered closed

/-! ### Steps -/

theorem authentication_verified_iff {authenticate : String → Except AuthFailure ScopedPrincipal} {request : HttpRequest} :
    (AuthenticationMiddleware authenticate request).1 = .verified principal ↔
      ∃ header credential, request.authorization = some header ∧ credentialOf header = some credential ∧
        authenticate credential = .ok principal := by
  unfold AuthenticationMiddleware
  split
  · next absent => simp [absent]
  next header presented =>
  simp only [presented, Option.some.injEq, exists_and_left, exists_eq_left']
  split
  · next malformed => simp [unauthorized401, malformed]
  next credential bearer =>
  simp only [bearer, Option.some.injEq, exists_eq_left']
  split <;> next found => simp [unauthorized401, found]

theorem authentication_recorded {authenticate : String → Except AuthFailure ScopedPrincipal} {request : HttpRequest}
    (verified : (AuthenticationMiddleware authenticate request).1 = .verified principal) :
    ∃ event ∈ (AuthenticationMiddleware authenticate request).2, Admits event principal := by
  obtain ⟨header, credential, presented, bearer, authenticated⟩ := authentication_verified_iff.mp verified
  simp only [AuthenticationMiddleware, presented, bearer, authenticated]
  exact ⟨_, List.mem_cons_self, rfl, rfl, rfl, rfl⟩

theorem verifiedAs_iff (credentials : Credentials) (asked : Option (ℚ × Option RateLimitDecision)) (progress : Progress W ρ E) :
    ({ connection with credentials := some credentials, asked, progress } : Connection W ρ E).VerifiedAs app principal ↔
      (AuthenticationMiddleware (app.authenticate credentials) connection.request).1 = .verified principal := by
  rw [authentication_verified_iff]
  constructor
  · rintro ⟨_, ⟨⟩, verified⟩
    exact verified
  · exact fun verified => ⟨credentials, rfl, verified⟩

/-- A connection that is there gets on, and its call is not given to the service. -/
theorem Sound.goOn (sound : Sound app steps s) (there : s.connections c = some connection)
    (open_ : ∀ answered, connection.progress ≠ .answered answered)
    (connections : s'.connections = Function.update s.connections c (some connection'))
    (same : connection'.request = connection.request)
    (answers : s'.answers = s.answers ∧ (∀ answered, connection'.progress ≠ .answered answered) ∨
      ∃ answered, connection'.progress = .answered answered ∧ s'.answers = s.answers ++ [(c, answered)])
    (audit : s.audit ⊆ s'.audit) (acquired : s.acquired ⊆ s'.acquired) (handled : s'.handled = s.handled)
    (fits : Fits app s' c connection') : Sound app steps s' :=
  sound.update (fun _ h => h) (fun _ _ h => .inl h) connections (same ▸ sound.genuine c connection there)
    (sound.unanswered there open_) answers audit acquired (.inl handled) fits

theorem Sound.authenticate (sound : Sound app steps s) (there : s.connections c = some connection)
    (arrived : connection.progress = .arrived) (credentials : Credentials) :
    Sound app steps (s.authenticate app c connection credentials) := by
  have unhandled : c ∉ s.handled.map (·.connection) := by
    have fits := sound.fits c connection there
    rwa [Fits, arrived] at fits
  have open_ : ∀ answered, connection.progress ≠ .answered answered := fun _ => arrived ▸ nofun
  have verifiedAs (asked progress) (principal : ScopedPrincipal) :
      ({ connection with credentials := some credentials, asked, progress } : Connection W ρ E).VerifiedAs app principal ↔
        (AuthenticationMiddleware (app.authenticate credentials) connection.request).1 = .verified principal :=
    verifiedAs_iff credentials asked progress
  have recorded (principal : ScopedPrincipal) :
      (AuthenticationMiddleware (app.authenticate credentials) connection.request).1 = .verified principal →
        ∃ event ∈ (AuthenticationMiddleware (app.authenticate credentials) connection.request).2, Admits event principal :=
    authentication_recorded
  unfold Ingress.authenticate
  generalize AuthenticationMiddleware (app.authenticate credentials) connection.request = made at verifiedAs recorded
  obtain ⟨authenticated, audit⟩ := made
  have kept : s.audit ⊆ s.audit ++ audit := List.subset_append_left _ _
  dsimp only
  cases authenticated with
  | rejected response =>
    refine sound.goOn there open_ rfl rfl (.inr ⟨_, rfl, rfl⟩) kept (fun _ h => h) rfl (.inr ⟨unhandled, ?_⟩)
    rintro ⟨⟨principal, verified⟩, -, -⟩
    cases (verifiedAs _ _ principal).mp verified
  | anonymous =>
    refine sound.goOn there open_ rfl rfl (.inl ⟨rfl, fun _ h => by cases h⟩) kept (fun _ h => h) rfl ⟨unhandled, ?_⟩
    intro principal verified
    cases (verifiedAs _ _ principal).mp verified
  | verified principal =>
    obtain ⟨event, new, admits⟩ := recorded principal rfl
    exact sound.goOn there open_ rfl rfl (.inl ⟨rfl, fun _ h => by cases h⟩) kept (fun _ h => h) rfl
      ⟨unhandled, (verifiedAs _ _ principal).mpr rfl, event, List.mem_append_right _ new, admits⟩

theorem Sound.acquire (sound : Sound app steps s) (there : s.connections c = some connection)
    (authenticated : connection.progress = .authenticated principal) (now : ℚ) :
    Sound app steps (s.acquire app c connection principal now) := by
  obtain ⟨unhandled, verified, recorded⟩ : c ∉ s.handled.map (·.connection) ∧ connection.VerifiedAs app principal ∧
      ∃ event ∈ s.audit, Admits event principal := by
    have fits := sound.fits c connection there
    rwa [Fits, authenticated] at fits
  have open_ : ∀ answered, connection.progress ≠ .answered answered := fun _ => authenticated ▸ nofun
  unfold Ingress.acquire
  split
  · refine sound.goOn there open_ rfl rfl (.inr ⟨_, rfl, rfl⟩) (fun _ h => h) (fun _ h => h) rfl (.inr ⟨unhandled, ?_⟩)
    rintro ⟨-, ⟨_, _, ⟨⟩, -⟩, -⟩
  · next limiter decision _ =>
    have kept : s.acquired ⊆ s.acquired ++ [(c, principal.organizationId, now, decision)] := List.subset_append_left _ _
    dsimp only
    split
    · next allowed =>
      exact sound.goOn there open_ rfl rfl (.inl ⟨rfl, fun _ h => by cases h⟩) (fun _ h => h) kept rfl
        ⟨unhandled, verified, recorded, ⟨rfl, allowed⟩, List.mem_append_right _ List.mem_cons_self⟩
    · next denied =>
      refine sound.goOn there open_ rfl rfl (.inr ⟨_, rfl, rfl⟩) (fun _ h => h) kept rfl (.inr ⟨unhandled, ?_⟩)
      rintro ⟨-, ⟨_, _, ⟨⟩, allowed⟩, -⟩
      exact denied allowed

/-- The service is given the call of a connection that was let in. -/
theorem Sound.serve (sound : Sound app steps s) (there : s.connections c = some connection)
    {now : ℚ} (letIn : connection.progress = .letIn (some (principal, now, decision)))
    (accepted : connection.request.body = some body) :
    Sound app steps (s.serve app c connection principal now decision body) := by
  obtain ⟨unhandled, verified, recorded, allowed, decided⟩ : c ∉ s.handled.map (·.connection) ∧
      connection.VerifiedAs app principal ∧ (∃ event ∈ s.audit, Admits event principal) ∧
      connection.Allowed now decision ∧ (c, principal.organizationId, now, decision) ∈ s.acquired := by
    have fits := sound.fits c connection there
    rwa [Fits, letIn] at fits
  have given : Given app s ⟨c, principal, now, infer principal connection.request.requestId body⟩ connection decision body :=
    ⟨verified, recorded, allowed, decided, accepted, rfl⟩
  refine sound.update (fun _ h => h) (fun _ _ h => .inl h) rfl (sound.genuine c connection there)
    (sound.unanswered there fun _ => letIn ▸ nofun) (.inl ⟨rfl, fun _ h => by cases h⟩) (fun _ h => h) (fun _ h => h)
    (.inr ⟨unhandled, _, rfl, rfl⟩) ⟨_, List.mem_append_right _ List.mem_cons_self, rfl, ⟨body, ?_⟩, fun _ h => h⟩
  exact ⟨given.verified, given.recorded, given.allowed, given.decided, given.accepted, given.own⟩

/-- A connection that is not entitled is answered without the service. -/
theorem Sound.refuse (sound : Sound app steps s) (there : s.connections c = some connection)
    (open_ : ∀ answered, connection.progress ≠ .answered answered) (unhandled : c ∉ s.handled.map (·.connection))
    (unentitled : ¬ connection.Entitled app) (answered : Answered) : Sound app steps (s.answer c connection answered) := by
  refine sound.goOn there open_ rfl rfl (.inr ⟨_, rfl, rfl⟩) (fun _ h => h) (fun _ h => h) rfl (.inr ⟨unhandled, ?_⟩)
  exact fun entitled => unentitled ⟨entitled.verified, entitled.allowed, entitled.accepted⟩

theorem Sound.route (sound : Sound app steps s) (there : s.connections c = some connection)
    {admitted : Option (ScopedPrincipal × ℚ × RateLimitDecision)} (letIn : connection.progress = .letIn admitted) :
    Sound app steps (s.route app c connection admitted) := by
  have open_ : ∀ answered, connection.progress ≠ .answered answered := fun _ => letIn ▸ nofun
  have fits := sound.fits c connection there
  rw [Fits, letIn] at fits
  have unhandled : c ∉ s.handled.map (·.connection) := by
    rcases admitted with _ | admitted
    · exact fits.1
    · exact fits.1
  unfold Ingress.route
  split
  · next refused => exact sound.refuse there open_ unhandled (fun entitled => entitled.accepted refused) _
  · next refused => exact sound.refuse there open_ unhandled (fun entitled => entitled.accepted refused) _
  · refine sound.refuse there open_ unhandled ?_ _
    rintro ⟨⟨principal, verified⟩, -, -⟩
    exact fits.2 principal verified
  · next accepted => exact sound.serve there letIn accepted

theorem Sound.proceed (sound : Sound app steps s) (there : s.connections c = some connection)
    {rest : Process W (ServiceReply ρ E)} (serving : connection.progress = .serving decision rest) :
    Sound app steps (s.proceed c connection decision rest) := by
  have open_ : ∀ answered, connection.progress ≠ .answered answered := fun _ => serving ▸ nofun
  obtain ⟨h, handled, own, ⟨body, given⟩, yields⟩ : ∃ h ∈ s.handled, h.connection = c ∧
      (∃ body, Given app s h connection decision body) ∧
      ∀ reply, rest.Yields reply → (app.handling h.call).Yields reply := by
    have fits := sound.fits c connection there
    rwa [Fits, serving] at fits
  cases rest with
  | done reply =>
    refine sound.goOn there open_ rfl rfl (.inr ⟨_, rfl, rfl⟩) (fun _ h => h) (fun _ h => h) rfl
      (.inl ⟨h, handled, own, decision, body, ?_, reply, yields reply (.done reply), rfl⟩)
    exact ⟨given.verified, given.recorded, given.allowed, given.decided, given.accepted, given.own⟩
  | step effect next =>
    refine sound.goOn there open_ rfl rfl (.inl ⟨rfl, fun _ h => by cases h⟩) (fun _ h => h) (fun _ h => h) rfl
      ⟨h, handled, own, ⟨body, ?_⟩, fun reply yielded => yields reply (.step s.world yielded)⟩
    exact ⟨given.verified, given.recorded, given.allowed, given.decided, given.accepted, given.own⟩

theorem Sound.advance (sound : Sound app steps s) (there : s.connections c = some connection) (how : Advance) :
    Sound app steps (s.advance app c connection how) := by
  unfold Ingress.advance
  split
  · next credentials arrived => exact sound.authenticate there arrived credentials
  · next now principal authenticated => exact sound.acquire there authenticated now
  · next admitted letIn => exact sound.route there letIn
  · next decision rest serving => exact sound.proceed there serving
  · exact sound

/-- A step that opens no connection may be added to the past. -/
theorem Sound.still (sound : Sound app steps s) {a : IngressStep}
    (known : ∀ c request, a = .arrive c request → ∃ connection, s.connections c = some connection) :
    Sound app (steps ++ [a]) s :=
  { sound with
    arrived := fun c request there => by
      rcases List.mem_append.mp there with before | now
      · exact sound.arrived c request before
      · exact known c request (List.mem_singleton.mp now).symm
    genuine := fun c connection there => List.mem_append_left _ (sound.genuine c connection there) }

theorem Sound.step (sound : Sound app steps s) (a : IngressStep) : Sound app (steps ++ [a]) (s.step app a) := by
  cases a with
  | arrive c request =>
    unfold Ingress.step
    dsimp only
    split
    · next connection there =>
      refine sound.still fun c' request' same => ?_
      cases same
      exact ⟨connection, there⟩
    · next free =>
      refine sound.update (List.subset_append_left _ _) (fun c' request' there => ?_) rfl
        (List.mem_append_right _ List.mem_cons_self) (fun answered there => ?_) (.inl ⟨rfl, fun _ h => by cases h⟩) (fun _ h => h)
        (fun _ h => h) (.inl rfl) fun there => ?_
      · refine (List.mem_append.mp there).imp_right fun new => ?_
        cases List.mem_singleton.mp new
        rfl
      · obtain ⟨connection, there, -⟩ := (sound.answers.answered c answered).mp there
        cases free.symm.trans there
      · obtain ⟨h, there, rfl⟩ := List.mem_map.mp there
        obtain ⟨connection, there⟩ := sound.known h there
        cases free.symm.trans there
  | advance c how =>
    have still : Sound app (steps ++ [.advance c how]) s := sound.still nofun
    unfold Ingress.step
    dsimp only
    split
    · next connection there => exact still.advance there how
    · exact still

theorem Sound.run (sound : Sound app steps s) (as : List IngressStep) : Sound app (steps ++ as) (s.run app as) := by
  induction as generalizing steps s with
  | nil => exact (List.append_nil steps).symm ▸ sound
  | cons a as ih =>
    have rest := ih (sound.step a)
    rwa [List.append_assoc, List.singleton_append] at rest

/-- Who is let in and taken by the route is with the service or answered. -/
theorem passed_of_route (there : s.connections c = some connection)
    {admitted : Option (ScopedPrincipal × ℚ × RateLimitDecision)} (letIn : connection.progress = .letIn admitted) :
    ∃ progress, (s.step app (.advance c .route)).connections c = some { connection with progress } ∧
      ({ connection with progress } : Connection W ρ E).Passed := by
  simp only [Ingress.step, there, Ingress.advance, letIn]
  unfold Ingress.route
  split
  · exact ⟨_, Function.update_self _ _ _, .inr ⟨_, rfl⟩⟩
  · exact ⟨_, Function.update_self _ _ _, .inr ⟨_, rfl⟩⟩
  · exact ⟨_, Function.update_self _ _ _, .inr ⟨_, rfl⟩⟩
  · exact ⟨_, Function.update_self _ _ _, .inl ⟨_, _, rfl⟩⟩

/-- The service is given the calls of those past the route that are entitled. -/
theorem Sound.handled_iff (sound : Sound app steps s) (c : Nat) : c ∈ s.handled.map (·.connection) ↔
    ∃ connection, s.connections c = some connection ∧ connection.Passed ∧ connection.Entitled app := by
  constructor
  · intro handled
    obtain ⟨connection, there⟩ : ∃ connection, s.connections c = some connection := by
      obtain ⟨h, there, rfl⟩ := List.mem_map.mp handled
      exact sound.known h there
    have fits := sound.fits c connection there
    refine ⟨connection, there, ?_⟩
    unfold Fits at fits
    split at fits
    · exact absurd handled fits
    · exact absurd handled fits.1
    · exact absurd handled fits.1
    · exact absurd handled fits.1
    · next decision rest serving =>
      obtain ⟨_, -, -, ⟨_, given⟩, -⟩ := fits
      exact ⟨.inl ⟨decision, rest, serving⟩, given.entitled⟩
    · next answered closed =>
      rcases fits with ⟨_, -, -, _, _, given, -⟩ | ⟨unhandled, -⟩
      · exact ⟨.inr ⟨answered, closed⟩, given.entitled⟩
      · exact absurd handled unhandled
  · rintro ⟨connection, there, passed, entitled⟩
    have fits := sound.fits c connection there
    rcases passed with ⟨decision, rest, serving⟩ | ⟨answered, closed⟩
    · rw [Fits, serving] at fits
      obtain ⟨h, handled, own, -⟩ := fits
      exact List.mem_map.mpr ⟨h, handled, own⟩
    · rw [Fits, closed] at fits
      rcases fits with ⟨h, handled, own, -⟩ | ⟨-, unentitled⟩
      · exact List.mem_map.mpr ⟨h, handled, own⟩
      · exact absurd entitled unentitled

/-- A call was given for good reasons, and is answered as the service replied. -/
theorem Sound.given (sound : Sound app steps s) (handled : h ∈ s.handled) :
    ∃ connection decision body, s.connections h.connection = some connection ∧
      Given app s h connection decision body ∧
      ∀ answered, connection.progress = .answered answered → Settles app h connection decision answered := by
  obtain ⟨connection, there⟩ := sound.known h handled
  have only : ∀ h' ∈ s.handled, h'.connection = h.connection → h' = h := fun h' there' same =>
    List.inj_on_of_nodup_map sound.handledOnce there' handled same
  have mem : h.connection ∈ s.handled.map (·.connection) := List.mem_map_of_mem handled
  have fits := sound.fits h.connection connection there
  unfold Fits at fits
  split at fits
  · exact absurd mem fits
  · exact absurd mem fits.1
  · exact absurd mem fits.1
  · exact absurd mem fits.1
  · next decision rest serving =>
    obtain ⟨h', there', same, ⟨body, given⟩, -⟩ := fits
    obtain rfl := only h' there' same
    exact ⟨connection, decision, body, there, given, fun answered closed => by cases serving.symm.trans closed⟩
  · next answered closed =>
    rcases fits with ⟨h', there', same, decision, body, given, settles⟩ | ⟨unhandled, -⟩
    · obtain rfl := only h' there' same
      refine ⟨connection, decision, body, there, given, fun answered' closed' => ?_⟩
      obtain rfl := Progress.answered.inj (closed.symm.trans closed')
      exact settles
    · exact absurd mem unhandled

theorem Sound.proper (sound : Sound app steps s) : Proper app steps s where
  arrived := sound.arrived
  genuine := sound.genuine
  once := sound.answers.once
  answered := sound.answers.answered
  routed _ _ _ there letIn := passed_of_route there letIn
  handledOnce := sound.handledOnce
  handled_iff := sound.handled_iff
  handled _ handled := sound.given handled

end

theorem Sound.start (limiter : L) (w : W) : Sound app [] ({ limiter, world := w } : Ingress L W ρ E) where
  arrived _ _ there := absurd there List.not_mem_nil
  genuine _ _ there := by cases there
  answers := by
    refine ⟨List.nodup_nil, fun c answered => iff_of_false List.not_mem_nil ?_⟩
    rintro ⟨_, there, -⟩
    cases there
  handledOnce := List.nodup_nil
  known _ there := absurd there List.not_mem_nil
  fits _ _ there := by cases there

/-! ### One call at a time -/

/-- The service has no call in hand. -/
def Ingress.Idle (s : Ingress L W ρ E) : Prop :=
  ∀ c connection, s.connections c = some connection → ∀ decision rest, connection.progress ≠ .serving decision rest

/-- The service is given a call only while it has none in hand. -/
def InTurn (s : Ingress L W ρ E) : List IngressStep → Prop
  | [] => True
  | a :: as => ((s.step app a).handled ≠ s.handled → s.Idle) ∧ InTurn (s.step app a) as

/-- The world and the replies are those of the calls in sequence. -/
def InSequence (w : W) (s : Ingress L W ρ E) (calls : List (Call InferenceRequest)) (world : W) : Prop :=
  (app.deployment.run calls w).1 = world ∧ s.replies = (app.deployment.run calls w).2.map (·.2.2.2)

/-- The service has handled its calls in sequence, and may have one in hand, with which it has gone on alone. -/
inductive Serial (w : W) (s : Ingress L W ρ E) : Prop where
  | idle (idle : s.Idle) (past : InSequence app w s (s.handled.map (·.call)) s.world)
  | busy {c : Nat} {connection : Connection W ρ E} {decision : RateLimitDecision} {rest : Process W (ServiceReply ρ E)}
    {before : List Handled} {h : Handled} {world : W} (there : s.connections c = some connection)
    (serving : connection.progress = .serving decision rest)
    (only : ∀ c' connection', s.connections c' = some connection' →
      ∀ decision' rest', connection'.progress = .serving decision' rest' → c' = c)
    (last : s.handled = before ++ [h]) (past : InSequence app w s (before.map (·.call)) world)
    (alone : rest.alone s.world = app.deployment.handle h.call world)

section
variable {app} {w : W} {s s' : Ingress L W ρ E} {c : Nat} {connection connection' : Connection W ρ E}
  {decision : RateLimitDecision}

theorem Deployment.run_concat {Q R E S : Type} (deployment : Deployment W ρ Q R E S) (calls : List (Call Q))
    (call : Call Q) (w : W) :
    deployment.run (calls ++ [call]) w =
      ((deployment.handle call (deployment.run calls w).1).1,
        (deployment.run calls w).2 ++ [(call, (deployment.run calls w).1, deployment.handle call (deployment.run calls w).1)]) := by
  induction calls generalizing w with
  | nil => rfl
  | cons first calls ih => simp only [List.cons_append, Deployment.run, ih]

/-- A connection gets on that the service has nothing to do with. -/
theorem Serial.aside (serial : Serial app w s)
    (away : ∀ connection, s.connections c = some connection → ∀ decision rest, connection.progress ≠ .serving decision rest)
    (connections : s'.connections = Function.update s.connections c (some connection'))
    (still : ∀ decision rest, connection'.progress ≠ .serving decision rest)
    (world : s'.world = s.world) (handled : s'.handled = s.handled) (replies : s'.replies = s.replies) :
    Serial app w s' := by
  have before : ∀ c' connection'', s'.connections c' = some connection'' →
      ∀ decision rest, connection''.progress = .serving decision rest → s.connections c' = some connection'' := by
    intro c' connection'' there decision rest serving
    rw [connections] at there
    by_cases ne : c' = c
    · rw [ne, Function.update_self] at there
      cases there
      exact absurd serving (still decision rest)
    · rwa [Function.update_of_ne ne] at there
  cases serial with
  | idle idle past =>
    refine .idle (fun c' connection'' there decision rest serving => ?_) ⟨?_, ?_⟩
    · exact idle c' connection'' (before c' connection'' there decision rest serving) decision rest serving
    · rw [handled, world, past.1]
    · rw [handled, replies, past.2]
  | @busy c₀ _ _ _ _ _ _ there serving only last past alone =>
    have other : c₀ ≠ c := by
      rintro rfl
      exact away _ there _ _ serving
    refine .busy (by rw [connections, Function.update_of_ne other, there]) serving (fun c' connection'' there decision rest serving => ?_)
      (handled.trans last) ⟨past.1, replies.trans past.2⟩ (world.symm ▸ alone)
    exact only c' connection'' (before c' connection'' there decision rest serving) decision rest serving

/-- The service is given a call when it has none in hand. -/
theorem Serial.serve (serial : Serial app w s) (idle : s.Idle) (principal : ScopedPrincipal) (now : ℚ)
    (body : InferenceBody) : Serial app w (s.serve app c connection principal now decision body) := by
  cases serial with
  | busy there serving => exact absurd serving (idle _ _ there _ _)
  | idle _ past =>
    refine .busy (Function.update_self _ _ _) rfl (fun c' connection' there decision' rest' serving => ?_) rfl past
      (app.handling_alone _ _)
    by_contra ne
    exact idle c' connection' ((Function.update_of_ne ne _ _).symm.trans there) decision' rest' serving

theorem Serial.proceed (serial : Serial app w s) (there : s.connections c = some connection)
    {rest : Process W (ServiceReply ρ E)} (serving : connection.progress = .serving decision rest) :
    Serial app w (s.proceed c connection decision rest) := by
  cases serial with
  | idle idle => exact absurd serving (idle _ _ there _ _)
  | @busy _ _ _ _ before h _ there' serving' only last past alone =>
    obtain rfl := only c connection there decision rest serving
    cases there.symm.trans there'
    cases serving.symm.trans serving'
    cases rest with
    | done reply =>
      refine .idle (fun c' connection' there decision' rest' serving' => ?_) ?_
      · by_cases ne : c' = c
        · subst ne
          cases (Function.update_self _ _ _).symm.trans there
          cases serving'
        · exact ne (only c' connection' ((Function.update_of_ne ne _ _).symm.trans there) decision' rest' serving')
      · have ran := Deployment.run_concat app.deployment (before.map (·.call)) h.call w
        rw [past.1, ← alone] at ran
        have calls : s.handled.map (·.call) = before.map (·.call) ++ [h.call] := by rw [last, List.map_append]; rfl
        refine ⟨?_, ?_⟩ <;> simp only [Ingress.proceed, Ingress.answer, Ingress.put, calls, ran, past.2, Process.alone,
          List.map_append, List.map_cons, List.map_nil]
    | step effect next =>
      refine .busy (Function.update_self _ _ _) rfl (fun c' connection' there decision' rest' serving' => ?_) last past alone
      by_contra ne
      exact ne (only c' connection' ((Function.update_of_ne ne _ _).symm.trans there) decision' rest' serving')

/-- No call is with the service of a connection that has come no further than the route. -/
theorem not_serving (there : s.connections c = some connection)
    (away : ∀ decision rest, connection.progress ≠ .serving decision rest) :
    ∀ connection, s.connections c = some connection → ∀ decision rest, connection.progress ≠ .serving decision rest := by
  intro connection' there'
  cases there.symm.trans there'
  exact away

theorem Serial.advance (serial : Serial app w s) (there : s.connections c = some connection) (how : Advance)
    (inTurn : (s.advance app c connection how).handled ≠ s.handled → s.Idle) :
    Serial app w (s.advance app c connection how) := by
  unfold Ingress.advance at inTurn ⊢
  split
  · next credentials arrived =>
    have away := not_serving there fun _ _ => arrived ▸ nofun
    unfold Ingress.authenticate
    generalize AuthenticationMiddleware (app.authenticate credentials) connection.request = made
    obtain ⟨authenticated, audit⟩ := made
    cases authenticated <;> exact serial.aside away rfl nofun rfl rfl rfl
  · next now principal authenticated =>
    have away := not_serving there fun _ _ => authenticated ▸ nofun
    unfold Ingress.acquire
    split
    · exact serial.aside away rfl nofun rfl rfl rfl
    · dsimp only
      split <;> exact serial.aside away rfl nofun rfl rfl rfl
  · next admitted letIn =>
    have away := not_serving there fun _ _ => letIn ▸ nofun
    unfold Ingress.route at inTurn ⊢
    split
    · exact serial.aside away rfl nofun rfl rfl rfl
    · exact serial.aside away rfl nofun rfl rfl rfl
    · exact serial.aside away rfl nofun rfl rfl rfl
    · next body principal now decision accepted =>
      simp only [letIn, accepted] at inTurn
      have given : (s.serve app c connection principal now decision body).handled ≠ s.handled := by
        simp [Ingress.serve]
      exact serial.serve (inTurn given) principal now body
  · next decision rest serving => exact serial.proceed there serving
  · exact serial

theorem Serial.step (serial : Serial app w s) (a : IngressStep) (inTurn : (s.step app a).handled ≠ s.handled → s.Idle) :
    Serial app w (s.step app a) := by
  cases a with
  | arrive c request =>
    unfold Ingress.step
    dsimp only
    split
    · exact serial
    · next free => exact serial.aside (fun _ there => by cases free.symm.trans there) rfl nofun rfl rfl rfl
  | advance c how =>
    unfold Ingress.step at inTurn ⊢
    dsimp only at inTurn ⊢
    split
    · next connection there =>
      simp only [there] at inTurn
      exact serial.advance there how inTurn
    · exact serial

theorem Serial.run (serial : Serial app w s) (as : List IngressStep) (inTurn : InTurn app s as) :
    Serial app w (s.run app as) := by
  induction as generalizing s with
  | nil => exact serial
  | cons a as ih => exact ih (serial.step a inTurn.1) inTurn.2

end

end
end LlmGateway.Serving
