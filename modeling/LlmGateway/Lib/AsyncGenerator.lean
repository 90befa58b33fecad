import Mathlib.Order.Basic

/-! Asynchronous generators over a shared world: a body runs from its start or from the `yield` it
is suspended at, and closing unwinds it only when it was started. -/
namespace LlmGateway.Lib.AsyncGenerator

/-- Where a running body stops: at a `yield`, at its end, or by raising. -/
inductive Stop (S E X : Type) where
  | yielded (event : E) (frame : S)
  | returned
  | raised (error : X)

/-- A generator function. `close` is what runs when the suspended body is thrown out of its
`yield`: its `finally` clauses. -/
structure Function (W A S E X : Type) where
  enter : A → W → W × Stop S E X
  resume : S → W → W × Stop S E X
  close : S → W → W

inductive Generator (A S : Type) where
  | unstarted (arguments : A)
  | suspended (frame : S)
  | finished
  deriving DecidableEq, Repr

/-- What `__anext__` gives its caller. -/
inductive Pulled (E X : Type) where
  | item (event : E)
  | stop
  | error (error : X)

variable {W A S E X : Type}

def Stop.after : Stop S E X → Generator A S × Pulled E X
  | .yielded event frame => (.suspended frame, .item event)
  | .returned => (.finished, .stop)
  | .raised error => (.finished, .error error)

namespace Function
variable (f : Function W A S E X)

def anext : Generator A S → W → W × Generator A S × Pulled E X
  | .unstarted arguments, w => ((f.enter arguments w).1, (f.enter arguments w).2.after)
  | .suspended frame, w => ((f.resume frame w).1, (f.resume frame w).2.after)
  | .finished, w => (w, .finished, .stop)

/-- A generator that was never started runs none of its body. -/
def aclose : Generator A S → W → W
  | .unstarted _, w => w
  | .suspended frame, w => f.close frame w
  | .finished, w => w

/-- `n` pulls, whatever they give. -/
def pull : Nat → Generator A S → W → W × Generator A S
  | 0, g, w => (w, g)
  | n + 1, g, w => pull n (f.anext g w).2.1 (f.anext g w).1

/-- Pull to the end: the world left, what was pulled and what was raised. `n` bounds the pulls. -/
def drain : Nat → Generator A S → W → Option (W × List E × Option X)
  | 0, _, _ => none
  | n + 1, g, w =>
    match f.anext g w with
    | (w', _, .stop) => some (w', [], none)
    | (w', _, .error error) => some (w', [], some error)
    | (w', g', .item event) =>
      (drain n g' w').map fun drained => (drained.1, event :: drained.2.1, drained.2.2)

end Function

/-- What a consumer was given by some pulls, and where they left the generator. -/
structure Reading (W A S E X : Type) where
  world : W
  generator : Generator A S
  events : List E
  error : Option X

def Reading.after (event : E) (r : Reading W A S E X) : Reading W A S E X :=
  { r with events := event :: r.events }

/-- At most `n` pulls, up to the generator's end. -/
def Function.read (f : Function W A S E X) : Nat → Generator A S → W → Reading W A S E X
  | 0, g, w => ⟨w, g, [], none⟩
  | n + 1, g, w =>
    match f.anext g w with
    | (w', g', .item event) => (f.read n g' w').after event
    | (w', g', .stop) => ⟨w', g', [], none⟩
    | (w', g', .error error) => ⟨w', g', [], some error⟩

/-- What a consumer does with a generator: close it after some pulls, or pull to its end. -/
inductive Consumer where
  | close (pulls : Nat)
  | drain
  deriving DecidableEq, Repr

/-- The world a consumer may leave. -/
def Function.Leaves (f : Function W A S E X) (g : Generator A S) (w : W) :
    Consumer → W → Prop
  | .close n, w' => w' = f.aclose (f.pull n g w).2 (f.pull n g w).1
  | .drain, w' => ∃ n, f.pull n g w = (w', .finished)

/-- The same, with what the consumer was given. -/
def Function.Reads (f : Function W A S E X) (g : Generator A S) (w : W) (consumer : Consumer)
    (w' : W) (events : List E) (error : Option X) : Prop :=
  match consumer with
  | .close n => w' = f.aclose (f.read n g w).generator (f.read n g w).world ∧
      events = (f.read n g w).events ∧ error = (f.read n g w).error
  | .drain => ∃ n, f.drain n g w = some (w', events, error)

/-- `I` holds while the generator is suspended, `Q` once it is finished. -/
def Governed (I : S → W → Prop) (Q : W → Prop) : Generator A S → W → Prop
  | .unstarted _, _ => False
  | .suspended frame, w => I frame w
  | .finished, w => Q w

/-- The same of a body that has just stopped. -/
def Stops (I : S → W → Prop) (Q : W → Prop) : W × Stop S E X → Prop
  | (w, .yielded _ frame) => I frame w
  | (w, .returned) => Q w
  | (w, .raised _) => Q w

/-- A body that keeps `I` at every `yield` and ensures `Q` wherever it ends. -/
structure Keeps (f : Function W A S E X) (I : S → W → Prop) (Q : W → Prop) : Prop where
  resume : ∀ frame w, I frame w → Stops I Q (f.resume frame w)
  close : ∀ frame w, I frame w → Q (f.close frame w)

variable {f : Function W A S E X} {I : S → W → Prop} {Q : W → Prop} {g : Generator A S} {w : W}

theorem Stops.governed {r : W × Stop S E X} (h : Stops I Q r) :
    Governed I Q (r.2.after : Generator A S × Pulled E X).1 r.1 := by
  rcases r with ⟨w, _ | _ | _⟩ <;> exact h

theorem Keeps.anext (k : Keeps f I Q) (h : Governed I Q g w) :
    Governed I Q (f.anext g w).2.1 (f.anext g w).1 := by
  cases g with
  | unstarted a => exact h.elim
  | suspended frame => exact (k.resume frame w h).governed
  | finished => exact h

theorem Keeps.pull (k : Keeps f I Q) (n : Nat) (h : Governed I Q g w) :
    Governed I Q (f.pull n g w).2 (f.pull n g w).1 := by
  induction n generalizing g w with
  | zero => exact h
  | succ n ih => exact ih (k.anext h)

theorem Keeps.aclose (k : Keeps f I Q) (h : Governed I Q g w) : Q (f.aclose g w) := by
  cases g with
  | unstarted a => exact h.elim
  | suspended frame => exact k.close frame w h
  | finished => exact h

/-- However a generator is consumed, `Q` holds in the end, if only it was started. -/
theorem Keeps.leaves (k : Keeps f I Q) {a : A} (h : Stops I Q (f.enter a w)) {consumer : Consumer}
    (started : consumer ≠ .close 0) {w' : W} (hw : f.Leaves (.unstarted a) w consumer w') :
    Q w' := by
  have first : Governed I Q (f.anext (.unstarted a) w).2.1 (f.anext (.unstarted a) w).1 :=
    h.governed
  cases consumer with
  | close n =>
    cases n with
    | zero => exact absurd rfl started
    | succ n =>
      subst hw
      exact k.aclose (k.pull n first)
  | drain =>
    obtain ⟨n, hn⟩ := hw
    cases n with
    | zero => cases hn
    | succ n =>
      have governed := k.pull n first
      rw [show f.pull n _ _ = (w', .finished) from hn] at governed
      exact governed

/-- A measure that falls from each `yield` to the next: pulling comes to an end. -/
theorem Keeps.drains (k : Keeps f I Q) (μ : S → W → Nat)
    (falls : ∀ frame w, I frame w → ∀ w' event frame',
      f.resume frame w = (w', .yielded event frame') → μ frame' w' < μ frame w)
    {a : A} (h : Stops I Q (f.enter a w)) : ∃ w', f.Leaves (.unstarted a) w .drain w' := by
  have ends (m : Nat) : ∀ frame w, I frame w → μ frame w = m →
      ∃ n w', f.pull n (.suspended frame) w = (w', (.finished : Generator A S)) := by
    induction m using Nat.strongRecOn with
    | _ m ih =>
      intro frame w hI hm
      have stops := k.resume frame w hI
      have once (n : Nat) : f.pull (n + 1) (.suspended frame) w =
        f.pull n (f.resume frame w).2.after.1 (f.resume frame w).1 := rfl
      rcases hr : f.resume frame w with ⟨w', ⟨event, frame'⟩ | _ | _⟩
      · rw [hr] at stops
        have less := falls frame w hI w' event frame' hr
        obtain ⟨n, w'', hn⟩ := ih _ (hm ▸ less) frame' w' stops rfl
        exact ⟨n + 1, w'', by rw [once, hr]; exact hn⟩
      · exact ⟨1, w', by rw [once, hr]; rfl⟩
      · exact ⟨1, w', by rw [once, hr]; rfl⟩
  rcases he : f.enter a w with ⟨w₁, ⟨event, frame⟩ | _ | _⟩
  · rw [he] at h
    obtain ⟨n, w', hn⟩ := ends _ frame w₁ h rfl
    exact ⟨w', n + 1, by simp only [Function.pull, Function.anext, he]; exact hn⟩
  · exact ⟨w₁, 1, by simp only [Function.pull, Function.anext, he]; rfl⟩
  · exact ⟨w₁, 1, by simp only [Function.pull, Function.anext, he]; rfl⟩

section Drain
variable {n : Nat} {w' : W} {g' : Generator A S}

theorem drain_stop (h : f.anext g w = (w', g', .stop)) : f.drain (n + 1) g w = some (w', [], none) := by
  rw [Function.drain, h]

theorem drain_error {error : X} (h : f.anext g w = (w', g', .error error)) :
    f.drain (n + 1) g w = some (w', [], some error) := by
  rw [Function.drain, h]

theorem drain_item {event : E} (h : f.anext g w = (w', g', .item event)) :
    f.drain (n + 1) g w =
      (f.drain n g' w').map fun drained => (drained.1, event :: drained.2.1, drained.2.2) := by
  rw [Function.drain, h]

/-- More pulls than needed change nothing. -/
theorem drain_succ {r : W × List E × Option X} (h : f.drain n g w = some r) :
    f.drain (n + 1) g w = some r := by
  induction n generalizing g w r with
  | zero => cases h
  | succ n ih =>
    rcases hn : f.anext g w with ⟨w', g', event | _ | error⟩
    · rw [drain_item hn] at h ⊢
      obtain ⟨drained, hd, rfl⟩ := Option.map_eq_some_iff.mp h
      rw [ih hd]
      rfl
    · rw [drain_stop hn] at h ⊢
      exact h
    · rw [drain_error hn] at h ⊢
      exact h

theorem drain_unique {m : Nat} {r r' : W × List E × Option X} (h : f.drain n g w = some r)
    (h' : f.drain m g w = some r') : r = r' := by
  have more (k : Nat) {n : Nat} {r : W × List E × Option X} (h : f.drain n g w = some r) :
      f.drain (n + k) g w = some r := by
    induction k with
    | zero => exact h
    | succ k ih => exact drain_succ ih
  have hm := more m h
  have hn := more n h'
  rw [Nat.add_comm m n, hm] at hn
  exact Option.some.inj hn

/-- Reading to the end is draining. -/
theorem drain_of_read (h : (f.read n g w).generator = .finished) :
    f.drain (n + 1) g w =
      some ((f.read n g w).world, (f.read n g w).events, (f.read n g w).error) := by
  induction n generalizing g w with
  | zero =>
    obtain rfl : g = .finished := h
    rfl
  | succ n ih =>
    rcases hn : f.anext g w with ⟨w', g', event | _ | error⟩
    · simp only [Function.read, hn, Reading.after] at h ⊢
      rw [drain_item hn, ih h]
      rfl
    · simp only [Function.read, hn]
      exact drain_stop hn
    · simp only [Function.read, hn]
      exact drain_error hn

/-- A consumer that drains a generator has read as much as one that closes it past its end. -/
theorem reads_drain_iff (h : (f.read n g w).generator = .finished) {events : List E}
    {error : Option X} :
    f.Reads g w .drain w' events error ↔ f.Reads g w (.close n) w' events error := by
  have drained := drain_of_read h
  constructor
  · rintro ⟨m, hm⟩
    cases drain_unique hm drained
    exact ⟨by rw [h]; rfl, rfl, rfl⟩
  · rintro ⟨rfl, rfl, rfl⟩
    rw [h]
    exact ⟨n + 1, drained⟩

end Drain

end LlmGateway.Lib.AsyncGenerator
