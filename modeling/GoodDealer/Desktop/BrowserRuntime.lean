/-
# `GoodDealer.Desktop.BrowserRuntime` — a write that a browser session may have made

`BrowserRuntime` of `crates/automation-host`.  A write that software dispatched is owed until
a clean completion or an independent confirmation is recorded.  The takeover and the failure
of software keep it in sight as `OutcomeUnknown`; `invalidate` and a crash of the engine
set the state to `Failed` whatever was dispatched.  An owed write stays visible through a run
exactly if none of these happens while it is owed (`browserSession_visible_iff`).
-/
import GoodDealer.Lib.Bytes
import GoodDealer.Lib.Machine

namespace GoodDealer.Desktop

inductive BrowserSessionState where
  | prepared | userControlled | softwareControlled | takeoverPending | outcomeUnknown | closed
  | failed
deriving DecidableEq

inductive SideEffectState where
  | notDispatched | readDispatched | writeDispatched | resultLost
deriving DecidableEq

def SideEffectState.requiresIndependentConfirmation : SideEffectState → Bool
  | .writeDispatched | .resultLost => true
  | .notDispatched | .readDispatched => false

inductive BrowserEngineError where
  | unavailable | contextOccupied | adapterFailure

inductive BrowserRuntimeError where
  | invalidState | invalidSideEffectTransition | executionInvalidationFailed | generationOverflow
  | navigationDenied | invalidObservation | engineUnavailable | contextOccupied | engineFailure

def terminalAdapterError : BrowserEngineError → BrowserRuntimeError
  | .unavailable => .engineUnavailable
  | .contextOccupied | .adapterFailure => .engineFailure

inductive EngineObservation where
  | navigationCommitted | engineCrashed

/-- The event of `observe_engine_event`, if it is one. -/
def EngineObservation.parse (event : Bytes) : Option EngineObservation :=
  if event = "navigation_committed".toList.map (UInt8.ofNat ·.toNat) then some .navigationCommitted
  else if event = "engine_crashed".toList.map (UInt8.ofNat ·.toNat) then some .engineCrashed
  else none

/-- The last `u64`. -/
def lastGeneration : Nat := 2 ^ 64 - 1

structure BrowserRuntime where
  sequence : Nat
  state : BrowserSessionState
  navigationGeneration : Nat
  sideEffect : SideEffectState

/-- The calls, with what the navigation policy, the engine and the caller answer.  A request
is for a download, a file, a popup or a permission. -/
inductive BrowserCall where
  | start (allowed : Bool) (opened navigated : Option BrowserEngineError)
  | navigate (allowed : Bool) (navigated : Option BrowserEngineError)
  | beginSoftwareControl
  | recordDispatchedSideEffect (sideEffect : SideEffectState)
  | requestTakeover
  | completeTakeover (invalidated : Bool)
  | recordIndependentConfirmation
  | completeSoftwareControl
  | recordSoftwareFailure (resultMayBeLost : Bool)
  | close
  | request
  | observeEngineEvent (event : Bytes)
  | advanceProfileGeneration
  | advanceNavigationGeneration
  | advanceAppBoot

namespace BrowserRuntime

def prepare : BrowserRuntime := ⟨1, .prepared, 1, .notDispatched⟩

/-- `saturating_add(1)`. -/
def advance (n : Nat) : Nat := min (n + 1) lastGeneration

/-- The runtime in its next state. -/
def enter (r : BrowserRuntime) (state : BrowserSessionState) : BrowserRuntime :=
  { r with state, sequence := advance r.sequence }

def invalidate (r : BrowserRuntime) : BrowserRuntime := r.enter .failed

/-- A call in the state it requires. -/
def requireState (r : BrowserRuntime) (expected : BrowserSessionState)
    (done : BrowserRuntime × Except BrowserRuntimeError Unit) :
    BrowserRuntime × Except BrowserRuntimeError Unit :=
  if r.state = expected then done else (r, .error .invalidState)

def call (r : BrowserRuntime) : BrowserCall → BrowserRuntime × Except BrowserRuntimeError Unit
  | .start allowed opened navigated =>
    r.requireState .prepared <|
      match allowed, opened, navigated with
      | false, _, _ => (r.invalidate, .error .navigationDenied)
      | true, some .contextOccupied, _ => (r, .error .contextOccupied)
      | true, some error, _ | true, none, some error =>
        (r.invalidate, .error (terminalAdapterError error))
      | true, none, none =>
        if r.sequence < lastGeneration then (r.enter .userControlled, .ok ())
        else (r.invalidate, .error .generationOverflow)
  | .navigate allowed navigated =>
    r.requireState .userControlled <|
      match allowed, navigated with
      | false, _ => (r.invalidate, .error .navigationDenied)
      | true, some error => (r.invalidate, .error (terminalAdapterError error))
      | true, none => (r.enter r.state, .ok ())
  | .beginSoftwareControl =>
    r.requireState .userControlled
      ({ r with sideEffect := .notDispatched }.enter .softwareControlled, .ok ())
  | .recordDispatchedSideEffect sideEffect =>
    r.requireState .softwareControlled <|
      if sideEffect = .notDispatched ∨ r.sideEffect.requiresIndependentConfirmation ∧
          !sideEffect.requiresIndependentConfirmation then
        (r, .error .invalidSideEffectTransition)
      else ({ r with sideEffect }, .ok ())
  | .requestTakeover =>
    r.requireState .softwareControlled ({ r with state := .takeoverPending }, .ok ())
  | .completeTakeover invalidated =>
    r.requireState .takeoverPending <|
      if !invalidated then (r.invalidate, .error .executionInvalidationFailed)
      else if lastGeneration ≤ r.sequence ∨ lastGeneration ≤ r.navigationGeneration then
        -- the sequence is advanced before the generation
        ({ r with sequence := advance r.sequence }.invalidate, .error .generationOverflow)
      else
        ({ r with navigationGeneration := r.navigationGeneration + 1 }.enter
          (if r.sideEffect.requiresIndependentConfirmation then .outcomeUnknown
            else .userControlled), .ok ())
  | .recordIndependentConfirmation =>
    r.requireState .outcomeUnknown
      ({ r with sideEffect := .notDispatched }.enter .userControlled, .ok ())
  | .completeSoftwareControl =>
    r.requireState .softwareControlled
      ({ r with sideEffect := .notDispatched }.enter .userControlled, .ok ())
  | .recordSoftwareFailure resultMayBeLost =>
    r.requireState .softwareControlled
      (r.enter (if resultMayBeLost || r.sideEffect.requiresIndependentConfirmation then
        .outcomeUnknown else .failed), .ok ())
  | .close =>
    match r.state with
    | .prepared | .userControlled | .outcomeUnknown | .failed => (r.enter .closed, .ok ())
    | _ => (r, .error .invalidState)
  | .observeEngineEvent event =>
    match EngineObservation.parse event with
    | some .navigationCommitted => (r.enter r.state, .ok ())
    | some .engineCrashed => (r.enter .failed, .ok ())
    | none => (r.invalidate, .error .invalidObservation)
  | .request | .advanceProfileGeneration | .advanceAppBoot => (r.invalidate, .ok ())
  | .advanceNavigationGeneration =>
    ({ r with navigationGeneration := advance r.navigationGeneration }.invalidate, .ok ())

end BrowserRuntime

/-! ## Owed writes -/

/-- A session and whether a write is owed.  `close` takes the runtime, so nothing follows it. -/
structure BrowserSession where
  runtime : Option BrowserRuntime
  writeOwed : Bool

/-- Whether a write is owed after a call with this answer. -/
def BrowserCall.owes (owed : Bool) : BrowserCall → Except BrowserRuntimeError Unit → Bool
  | .recordDispatchedSideEffect .writeDispatched, .ok () => true
  | .completeSoftwareControl, .ok () | .recordIndependentConfirmation, .ok () => false
  | _, _ => owed

def browserSession : Machine BrowserSession BrowserCall (Except BrowserRuntimeError Unit) where
  step s c :=
    match s.runtime with
    | none => (s, .error .invalidState)
    | some r =>
      (⟨if c matches .close then none else some (r.call c).1, c.owes s.writeOwed (r.call c).2⟩,
        (r.call c).2)

/-- The states in which a write may have been made. -/
def BrowserSessionState.Unsettled (state : BrowserSessionState) : Prop :=
  state = .softwareControlled ∨ state = .takeoverPending ∨ state = .outcomeUnknown

/-- An owed write shows in the state. -/
def BrowserSession.Visible (s : BrowserSession) : Prop :=
  ∀ r ∈ s.runtime, s.writeOwed = true → r.state.Unsettled

/-- The call sets the state to `Failed` without a look at what was dispatched. -/
def BrowserRuntime.Fails (r : BrowserRuntime) : BrowserCall → Prop
  | .request | .advanceProfileGeneration | .advanceNavigationGeneration | .advanceAppBoot => True
  | .observeEngineEvent event => ∀ o ∈ EngineObservation.parse event, o = .engineCrashed
  | .completeTakeover invalidated => r.state = .takeoverPending ∧
    (invalidated = false ∨ lastGeneration ≤ r.sequence ∨ lastGeneration ≤ r.navigationGeneration)
  | _ => False

/-- The call does not fail the session while a write is owed. -/
def BrowserSession.Spares (s : BrowserSession) (c : BrowserCall) : Prop :=
  ∀ r ∈ s.runtime, s.writeOwed = true → ¬ r.Fails c

/-- What the calls go by: an owed write is visible, and in the field that a takeover reads. -/
def BrowserSession.InSight (s : BrowserSession) : Prop :=
  ∀ r ∈ s.runtime, s.writeOwed = true →
    r.state.Unsettled ∧ r.sideEffect.requiresIndependentConfirmation = true

namespace BrowserRuntime

open BrowserSession (Visible InSight)

open BrowserSessionState (Unsettled)

variable {r : BrowserRuntime} {c : BrowserCall}

/-- A call on a session that owes a write, other than `close`. -/
theorem call_owed (hclose : c ≠ .close) (h : InSight ⟨some r, true⟩) :
    (¬ r.Fails c → InSight ⟨some (r.call c).1, c.owes true (r.call c).2⟩) ∧
      (r.Fails c → ¬ Visible ⟨some (r.call c).1, c.owes true (r.call c).2⟩) := by
  obtain ⟨hstate, hrecorded⟩ := h r rfl rfl
  cases c with
  | close => exact absurd rfl hclose
  | recordDispatchedSideEffect sideEffect =>
    -- a write is not replaced by a read
    cases hnext : sideEffect.requiresIndependentConfirmation with
    | false =>
      rcases hstate with h | h | h <;>
        simp [InSight, Unsettled, call, requireState, Fails, h, hrecorded, hnext]
    | true =>
      have hne : sideEffect ≠ .notDispatched := by
        rintro rfl
        cases hnext
      rcases hstate with h | h | h <;>
        simp [InSight, Unsettled, call, requireState, Fails, h, hrecorded, hnext, hne]
  | completeTakeover invalidated =>
    rcases hstate with h | h | h
    · simp [InSight, Unsettled, call, requireState, Fails, h, hrecorded]
    · cases invalidated with
      | false =>
        simp [Visible, Unsettled, call, requireState, BrowserCall.owes, Fails, h, invalidate, enter]
      | true =>
        by_cases hroom : lastGeneration ≤ r.sequence ∨ lastGeneration ≤ r.navigationGeneration <;>
          simp [Visible, InSight, Unsettled, call, requireState, BrowserCall.owes, Fails, h,
            hrecorded, hroom, invalidate, enter]
    · simp [InSight, Unsettled, call, requireState, Fails, h, hrecorded]
  | observeEngineEvent event =>
    cases hparse : EngineObservation.parse event with
    | none => simp [Visible, Unsettled, call, BrowserCall.owes, Fails, hparse, invalidate, enter]
    | some o =>
      cases o <;>
        simp [Visible, InSight, Unsettled, call, BrowserCall.owes, Fails, hparse, enter, hrecorded]
      exact hstate
  | _ =>
    rcases hstate with h | h | h <;>
      simp [Visible, InSight, Unsettled, call, requireState, BrowserCall.owes, Fails, h, hrecorded,
        invalidate, enter]

/-- A write becomes owed in `SoftwareControlled` only. -/
theorem call_free : InSight ⟨some (r.call c).1, c.owes false (r.call c).2⟩ := by
  rintro _ ⟨⟩ howed
  obtain ⟨rfl, hok⟩ : c = .recordDispatchedSideEffect .writeDispatched ∧ (r.call c).2 = .ok () := by
    unfold BrowserCall.owes at howed
    split at howed
    next h => exact ⟨rfl, h⟩
    all_goals cases howed
  by_cases hstate : r.state = .softwareControlled
  · simp [Unsettled, call, requireState, hstate, SideEffectState.requiresIndependentConfirmation]
  · simp [call, requireState, hstate] at hok

end BrowserRuntime

theorem next_inSight {s : BrowserSession} (h : s.InSight) (c : BrowserCall) :
    (s.Spares c → (browserSession.next s c).InSight) ∧
      ((browserSession.next s c).Visible → s.Spares c) := by
  obtain ⟨_ | r, owed⟩ := s
  · exact ⟨fun _ => h, fun _ => by rintro _ ⟨⟩⟩
  by_cases hclose : c = .close
  · subst hclose
    exact ⟨fun _ => by rintro _ ⟨⟩, fun _ _ _ _ => id⟩
  have hnext : browserSession.next ⟨some r, owed⟩ c =
      ⟨some (r.call c).1, c.owes owed (r.call c).2⟩ := by
    cases c <;> first | rfl | exact absurd rfl hclose
  rw [hnext]
  cases owed with
  | false => exact ⟨fun _ => BrowserRuntime.call_free, fun _ _ _ howed => by cases howed⟩
  | true =>
    obtain ⟨hkept, hlost⟩ := BrowserRuntime.call_owed hclose h
    exact ⟨fun hspares => hkept (hspares r rfl rfl), by
      rintro hvisible _ ⟨⟩ - hfails
      exact hlost hfails hvisible⟩

/-- From the start of a session on, an owed write is visible after every call exactly if no
call fails the session while it is owed. -/
theorem browserSession_visible_iff (calls : List BrowserCall) :
    browserSession.Along (fun s c => (browserSession.next s c).Visible)
        ⟨some .prepare, false⟩ calls ↔
      browserSession.Along BrowserSession.Spares ⟨some .prepare, false⟩ calls := by
  have hs : BrowserSession.InSight ⟨some .prepare, false⟩ := by rintro _ _ ⟨⟩
  generalize (⟨some .prepare, false⟩ : BrowserSession) = s at hs ⊢
  induction calls generalizing s with
  | nil => exact Iff.rfl
  | cons c calls ih =>
    obtain ⟨hkeeps, hspares⟩ := next_inSight hs c
    constructor
    · rintro ⟨hvisible, hrest⟩
      exact ⟨hspares hvisible, (ih _ (hkeeps (hspares hvisible))).mp hrest⟩
    · rintro ⟨hc, hrest⟩
      exact ⟨fun r hr howed => (hkeeps hc r hr howed).1, (ih _ (hkeeps hc)).mpr hrest⟩

/-- A write is dispatched and the engine crashes. -/
theorem browserSession_hides :
    (browserSession.run ⟨some .prepare, false⟩
      [.start true none none, .beginSoftwareControl, .recordDispatchedSideEffect .writeDispatched,
        .observeEngineEvent ("engine_crashed".toList.map (UInt8.ofNat ·.toNat))]) =
      ⟨some ⟨4, .failed, 1, .writeDispatched⟩, true⟩ := rfl

end GoodDealer.Desktop
