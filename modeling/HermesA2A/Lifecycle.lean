import HermesA2A.RemoteCalls
import HermesA2A.Lib.Sequential

/-!
# Loading the plugin, and shutting it down

The plugin starts a server when it is loaded, and an announcement starts one too; each server
comes with background threads of its own, for the rate limiter and for orphaned tasks.
`on_shutdown` stops what it knows of.

* `startA2aServer`, `handleAnnounce`, `PluginOp.on` — loads, announcements, streams, shutdowns.
* `servers_kept` — in every run at most one server serves, and it is the registered one unless the
  runtime state was cleared: then nothing ever stops it.  No announcement is ever made.
* `threads_accounted` — which of the background threads are still there.

One operation is one step here.  A thread that has left its loop may be alive for a while
(`leaving`), and a load that finds it alive starts nothing.  Two of the background threads can end
by an exception: the sweep of a rate limiter, as the logger its loop reports to is not defined, and
an orphan watchdog whose `time.sleep` refuses the response time-out.
-/

namespace HermesA2A

open Sequential

/-! ### The state -/

/-- The threads of the plugin, and what is known of them.  A server is named by its place among
those that were begun. -/
structure PluginState where
  /-- The servers that were begun. -/
  begun : ℕ
  /-- The servers whose orphan watchdog runs. -/
  watching : List ℕ
  /-- The servers whose rate limiter is swept. -/
  sweeping : List ℕ
  /-- The servers that serve. -/
  serving : List ℕ
  /-- The servers that have been shut down, and whose thread is still alive. -/
  leaving : List ℕ
  /-- `_server_process`: the thread of this server. -/
  process : Option ℕ
  /-- The server of the runtime state. -/
  server : Option ℕ
  /-- `SSEStreamer._started` -/
  sseStarted : Bool
  /-- Idle streams are being closed. -/
  sseSweeping : Bool
  /-- The metrics are being logged. -/
  logging : Bool

namespace PluginState

/-- No thread has been started. -/
def init : PluginState where
  begun := 0
  watching := []
  sweeping := []
  serving := []
  leaving := []
  process := none
  server := none
  sseStarted := false
  sseSweeping := false
  logging := false

/-- `_server_process is not None and _server_process.is_alive()` -/
def alive (s : PluginState) : Bool :=
  s.process.any fun n => s.serving.contains n || s.leaving.contains n

/-- The threads that `A2AServer.__init__` starts, before it binds its socket. -/
def begin (s : PluginState) : PluginState :=
  { s with
    begun := s.begun + 1
    watching := s.begun :: s.watching
    sweeping := s.begun :: s.sweeping }

/-- The server serves, and is registered. -/
def serve (n : ℕ) (s : PluginState) : PluginState :=
  { s with serving := n :: s.serving, process := some n, server := some n }

end PluginState

/-! ### Starting a server -/

/-- What comes of binding a socket. -/
inductive BindResult
  | bound
  /-- `OSError`: "Address already in use" -/
  | inUse
  /-- Any other exception. -/
  | failed

/-- What a start meets. -/
structure Launch where
  /-- The worker script is there, and the variables of the environment can be read. -/
  prepared : Bool
  /-- `A2A_PORT_RETRY_MAX` -/
  maxPortRetries : ℕ
  /-- What comes of the port so many places after `A2A_PORT`. -/
  bind : ℕ → BindResult

/-- The loop over the ports: with so many attempts left, the server that was built. -/
def buildServer (launch : Launch) : ℕ → ℕ → PluginState → Option ℕ × PluginState
  | 0, _, s => (none, s)
  | left + 1, attempt, s =>
      match launch.bind attempt with
      | .bound => (some s.begun, s.begin)
      | .inUse => if left = 0 then (none, s.begin) else buildServer launch left (attempt + 1) s.begin
      | .failed => (none, s.begin)

/-- `_start_a2a_server`: whether it returns, and the state after it.  It returns `None`. -/
def startA2aServer (launch : Launch) (s : PluginState) : Bool × PluginState :=
  if s.alive then (true, s)
  else if launch.prepared = false then (false, s)
  else
    match buildServer launch launch.maxPortRetries 0 s with
    | (some n, s) => (true, s.serve n)
    | (none, s) => (false, s)

/-! ### Announcements -/

/-- What an announcement meets. -/
structure Announcement where
  /-- The URL it is given, or that of the environment. -/
  registryUrl : String
  /-- `is_safe_url` -/
  safe : Bool
  /-- `server.build_agent_card()` -/
  agentCard : Except String Json
  /-- What comes of the request. -/
  posted : HttpOutcome
  /-- The text of what could not be started. -/
  startError : String
  /-- The text of a connection that fails. -/
  connectError : String

/-- `{"announced": False, "error": error}` -/
def notAnnounced (error : String) : Json := .obj [("announced", .bool false), ("error", .str error)]

/-- `handle_announce`, once `_ensure_server` has come to a server or none, or has raised; with the
requests it sends. -/
def announceWith (a : Announcement) (ensured : Option (Option ℕ)) : Json × List (String × Json) :=
  match ensured with
  | none => (notAnnounced ("Failed to build AgentCard: " ++ a.startError), [])
  | some none => (notAnnounced "A2A server not running", [])
  | some (some _) =>
      match a.agentCard with
      | .error e => (notAnnounced ("Failed to build AgentCard: " ++ e), [])
      | .ok card =>
          if a.safe = false then
            (notAnnounced
              "Registry URL is not safe: registry_url not allowed for security reasons", [])
          else
            let url := String.ofList (a.registryUrl.toList.rdropWhile (· = '/'))
            let answer := match a.posted with
              | .timeoutError => notAnnounced "Announcement timed out: Timed out after 15s"
              | .connectionError =>
                  notAnnounced ("Cannot connect to registry: Cannot connect: " ++ a.connectError)
              | .failed e => notAnnounced ("Announcement failed: " ++ e)
              | .body j =>
                  .obj [("announced", .bool true), ("agent_card", card), ("registry_response", j)]
            (answer, [(url, card)])

/-- `handle_announce`: the callback is `_start_a2a_server`. -/
def handleAnnounce (a : Announcement) (launch : Launch) (s : PluginState) :
    (Json × List (String × Json)) × PluginState :=
  if a.registryUrl = "" then
    ((.obj [("announced", .bool false), ("reason", .str "A2A_REGISTRY_URL is not configured"),
      ("hint", .str "Set A2A_REGISTRY_URL env var or pass 'url' parameter")], []), s)
  else
    let (returned, s) := startA2aServer launch s
    (announceWith a (if returned then some none else none), s)

/-! ### What happens to the plugin -/

/-- What the environment says of the metrics logger. -/
inductive MetricsLog
  /-- `A2A_METRICS_LOG_ENABLED` is not set. -/
  | off
  | on
  /-- It is set, but `A2A_METRICS_LOG_INTERVAL` is no number, or more than can be waited for. -/
  | refused

/-- What happens. -/
inductive PluginOp
  /-- `register`: whether the identity is accepted, and what is said of the metrics logger. -/
  | load (identified : Bool) (launch : Launch) (metricsLog : MetricsLog)
  | announce (a : Announcement) (launch : Launch)
  /-- A stream is opened. -/
  | openStream
  /-- `on_shutdown` -/
  | shutdown
  /-- `clear_runtime_state` -/
  | clear
  /-- The thread of a server ends. -/
  | ended (n : ℕ)
  /-- A sweep of this server's rate limiter raises, or the wait for it does.  Nothing catches the
  `NameError` of the handler. -/
  | sweepFailed (n : ℕ)
  /-- The `time.sleep` of this server's watchdog raises. -/
  | watchdogFailed (n : ℕ)

/-- `_start_metrics_logger`: the logger that runs is stopped before the interval is read. -/
def PluginState.startMetricsLogger : MetricsLog → PluginState → PluginState
  | .off, s => s
  | .on, s => { s with logging := true }
  | .refused, s => { s with logging := false }

/-- `HermesAgentA2APlugin.register` -/
def PluginState.load (identified : Bool) (launch : Launch) (metricsLog : MetricsLog)
    (s : PluginState) : PluginState :=
  if identified = false then s
  else
    match startA2aServer launch s with
    | (false, s) => s
    | (true, s) => s.startMetricsLogger metricsLog

/-- `SSEStreamer.open_stream`, as far as its thread goes. -/
def PluginState.openStream (s : PluginState) : PluginState :=
  if s.sseStarted then s else { s with sseStarted := true, sseSweeping := true }

/-- `on_shutdown` -/
def PluginState.shutdown (s : PluginState) : PluginState :=
  let s :=
    match s.server with
    | some n => { s with
        server := none
        sweeping := s.sweeping.filter (· ≠ n)
        serving := s.serving.erase n
        leaving := n :: s.leaving }
    | none => s
  if s.sseStarted then { s with sseSweeping := false } else s

/-- One operation. -/
def PluginOp.on : PluginOp → PluginState → PluginState
  | load identified launch metricsLog, s => s.load identified launch metricsLog
  | announce a launch, s => (handleAnnounce a launch s).2
  | openStream, s => s.openStream
  | shutdown, s => s.shutdown
  | clear, s => { s with server := none, logging := false }
  | ended n, s => { s with leaving := s.leaving.filter (· ≠ n) }
  | sweepFailed n, s => { s with sweeping := s.sweeping.filter (· ≠ n) }
  | watchdogFailed n, s => { s with watching := s.watching.filter (· ≠ n) }

/-! ### What a start does -/

/-- The ports that are tried. -/
def Launch.tried (launch : Launch) : ℕ → ℕ → ℕ
  | 0, _ => 0
  | left + 1, attempt =>
      match launch.bind attempt with
      | .inUse => if left = 0 then 1 else launch.tried left (attempt + 1) + 1
      | _ => 1

/-- A port can be bound, and those before it are in use. -/
def Launch.Succeeds (launch : Launch) : Prop :=
  launch.prepared = true ∧ ∃ k < launch.maxPortRetries, launch.bind k = .bound ∧
    ∀ j < k, launch.bind j = .inUse

/-- **What building a server does**: each attempt leaves the threads of a server behind. -/
structure Built (tried : ℕ) (s s' : PluginState) : Prop where
  rest : s' = { s with begun := s'.begun, watching := s'.watching, sweeping := s'.sweeping }
  begun : s'.begun = s.begun + tried
  watching : ∀ n, n ∈ s'.watching ↔ (s.begun ≤ n ∧ n < s'.begun) ∨ n ∈ s.watching
  sweeping : ∀ n, n ∈ s'.sweeping ↔ (s.begun ≤ n ∧ n < s'.begun) ∨ n ∈ s.sweeping

section Start

variable {launch : Launch} {s : PluginState}

theorem Built.refl (s : PluginState) : Built 0 s s where
  rest := rfl
  begun := rfl
  watching n := by
    rw [or_iff_right]
    omega
  sweeping n := by
    rw [or_iff_right]
    omega

/-- One server is begun. -/
theorem PluginState.mem_cons_begun (s : PluginState) (n : ℕ) (threads : List ℕ) :
    n ∈ s.begun :: threads ↔ (s.begun ≤ n ∧ n < s.begin.begun) ∨ n ∈ threads := by
  have hone : n = s.begun ↔ s.begun ≤ n ∧ n < s.begin.begun := by
    change n = s.begun ↔ s.begun ≤ n ∧ n < s.begun + 1
    omega
  rw [← hone]
  exact List.mem_cons

theorem PluginState.built_begin (s : PluginState) : Built 1 s s.begin :=
  ⟨rfl, rfl, fun n => s.mem_cons_begun n _, fun n => s.mem_cons_begun n _⟩

theorem Built.trans {m n : ℕ} {s s' s'' : PluginState} (h : Built m s s') (h' : Built n s' s'') :
    Built (n + m) s s'' := by
  have hfirst := h.begun
  have hsecond := h'.begun
  have hboth : ∀ k, (s'.begun ≤ k ∧ k < s''.begun) ∨ (s.begun ≤ k ∧ k < s'.begun) ↔
      s.begun ≤ k ∧ k < s''.begun := by
    intro k
    omega
  refine ⟨?_, ?_, fun k => ?_, fun k => ?_⟩
  · rw [h'.rest, h.rest]
  · omega
  · rw [h'.watching, h.watching, ← or_assoc, hboth]
  · rw [h'.sweeping, h.sweeping, ← or_assoc, hboth]

theorem built_buildServer (launch : Launch) (left attempt : ℕ) (s : PluginState) :
    Built (launch.tried left attempt) s (buildServer launch left attempt s).2 := by
  induction left generalizing attempt s with
  | zero => exact Built.refl s
  | succ left ih =>
      unfold buildServer Launch.tried
      cases launch.bind attempt with
      | bound => exact s.built_begin
      | failed => exact s.built_begin
      | inUse =>
          dsimp only
          split_ifs
          · exact s.built_begin
          · exact s.built_begin.trans (ih (attempt + 1) s.begin)

/-- **The first port that is free is bound.** -/
theorem buildServer_isSome {left attempt k : ℕ} (hk : k < left)
    (hbound : launch.bind (attempt + k) = .bound)
    (hused : ∀ j < k, launch.bind (attempt + j) = .inUse) :
    (buildServer launch left attempt s).1.isSome = true := by
  induction k generalizing left attempt s with
  | zero =>
      obtain ⟨left, rfl⟩ := Nat.exists_eq_succ_of_ne_zero (Nat.ne_of_gt hk)
      unfold buildServer
      rw [Nat.add_zero] at hbound
      rw [hbound]
      rfl
  | succ k ih =>
      obtain ⟨left, rfl⟩ := Nat.exists_eq_succ_of_ne_zero (Nat.ne_of_gt (Nat.zero_lt_of_lt hk))
      have hleft : ¬ left = 0 := by omega
      have hfirst := hused 0 (Nat.succ_pos k)
      rw [Nat.add_zero] at hfirst
      unfold buildServer
      rw [hfirst]
      dsimp only
      rw [if_neg hleft]
      refine ih (by omega) ?_ fun j hj => ?_
      · rw [← hbound]
        congr 1
        omega
      · rw [← hused (j + 1) (by omega)]
        congr 1
        omega

/-- The servers that a start begins. -/
def Launch.begins (launch : Launch) (s : PluginState) : ℕ :=
  if s.alive = true ∨ launch.prepared = false then 0
  else launch.tried launch.maxPortRetries 0

/-- **What a start comes to**: nothing, as a server is alive; or a server that serves; or an
exception. -/
theorem startA2aServer_cases (launch : Launch) (s : PluginState) :
    (s.alive = true ∧ startA2aServer launch s = (true, s)) ∨
      (s.alive = false ∧ ∃ s₁, Built (launch.begins s) s s₁ ∧
        (startA2aServer launch s = (false, s₁) ∨
          ∃ n, startA2aServer launch s = (true, s₁.serve n))) := by
  unfold startA2aServer Launch.begins
  cases halive : s.alive with
  | true => exact Or.inl ⟨rfl, by rw [if_pos rfl]⟩
  | false =>
      refine Or.inr ⟨rfl, ?_⟩
      rw [if_neg Bool.false_ne_true]
      cases hprepared : launch.prepared with
      | false =>
          rw [if_pos rfl, if_pos (Or.inr rfl)]
          exact ⟨s, Built.refl s, Or.inl rfl⟩
      | true =>
          rw [if_neg (by decide), if_neg (by decide)]
          refine ⟨_, built_buildServer launch launch.maxPortRetries 0 s, ?_⟩
          generalize buildServer launch launch.maxPortRetries 0 s = result
          obtain ⟨_ | n, s₁⟩ := result
          · exact Or.inl rfl
          · exact Or.inr ⟨n, rfl⟩

/-- **A start that can bind a port leaves a thread alive.** -/
theorem alive_of_succeeds (h : launch.Succeeds) : (startA2aServer launch s).2.alive = true := by
  obtain ⟨hprepared, k, hk, hbound, hused⟩ := h
  unfold startA2aServer
  cases halive : s.alive with
  | true => exact halive
  | false =>
      rw [if_neg Bool.false_ne_true, if_neg (by rw [hprepared]; decide)]
      have hsome : (buildServer launch launch.maxPortRetries 0 s).1.isSome = true :=
        buildServer_isSome hk (by rwa [Nat.zero_add]) fun j hj => by
          rw [Nat.zero_add]
          exact hused j hj
      generalize buildServer launch launch.maxPortRetries 0 s = result at hsome
      obtain ⟨_ | n, s₁⟩ := result
      · cases hsome
      · simp [PluginState.alive, PluginState.serve]

end Start

/-! ### Every run -/

/-- **What every operation keeps**: one server serves at most, and the registered one does. -/
structure PluginState.Kept (s : PluginState) : Prop where
  single : s.serving = [] ∨ ∃ n, s.serving = [n] ∧ s.process = some n
  registered : ∀ n, s.server = some n → s.serving = [n]

section Steps

variable {s s₁ : PluginState} {launch : Launch}

theorem PluginState.kept_init : PluginState.init.Kept := ⟨Or.inl rfl, fun _ h => nomatch h⟩

/-- Nobody serves without a thread that is alive. -/
theorem PluginState.Kept.serving_eq_nil (h : s.Kept) (halive : s.alive = false) :
    s.serving = [] ∧ s.server = none := by
  have hnone : s.serving = [] := by
    rcases h.single with hnone | ⟨n, hone, hprocess⟩
    · exact hnone
    · unfold alive at halive
      rw [hprocess, hone] at halive
      simp at halive
  refine ⟨hnone, ?_⟩
  cases hserver : s.server with
  | none => rfl
  | some n =>
      have hone := h.registered n hserver
      rw [hnone] at hone
      cases hone

theorem PluginState.Kept.built {tried : ℕ} (h : s.Kept) (hbuilt : Built tried s s₁) : s₁.Kept := by
  rw [hbuilt.rest]
  exact ⟨h.single, h.registered⟩

theorem PluginState.Kept.start (h : s.Kept) (launch : Launch) : (startA2aServer launch s).2.Kept := by
  rcases startA2aServer_cases launch s with ⟨-, heq⟩ | ⟨halive, s₁, hbuilt, heq | ⟨n, heq⟩⟩
  · rwa [heq]
  · rw [heq]
    exact h.built hbuilt
  · have hnone : s₁.serving = [] := by
      rw [hbuilt.rest]
      exact (h.serving_eq_nil halive).1
    rw [heq]
    refine ⟨Or.inr ⟨n, congrArg (n :: ·) hnone, rfl⟩, ?_⟩
    rintro m ⟨⟩
    exact congrArg (n :: ·) hnone

/-- What a load comes to: as a start, if it gets there, and if that returns, it sees to the metrics
logger. -/
theorem PluginState.load_cases (identified : Bool) (launch : Launch) (metricsLog : MetricsLog)
    (s : PluginState) :
    (identified = false ∧ s.load identified launch metricsLog = s) ∨
      (identified = true ∧ ∃ logging,
        s.load identified launch metricsLog =
          { (startA2aServer launch s).2 with logging := logging } ∧
        (logging = true ↔ ((startA2aServer launch s).1 = true ∧ metricsLog = .on) ∨
          ((startA2aServer launch s).2.logging = true ∧
            ¬ ((startA2aServer launch s).1 = true ∧ metricsLog = .refused)))) := by
  unfold load
  cases identified with
  | false => exact Or.inl ⟨rfl, rfl⟩
  | true =>
      refine Or.inr ⟨rfl, ?_⟩
      rw [if_neg (by decide)]
      generalize startA2aServer launch s = result
      obtain ⟨_ | _, s₁⟩ := result
      · exact ⟨s₁.logging, rfl, by simp⟩
      · cases metricsLog with
        | off => exact ⟨s₁.logging, rfl, by simp⟩
        | on => exact ⟨true, rfl, by simp⟩
        | refused => exact ⟨false, rfl, by simp⟩

/-- What an opened stream does. -/
theorem PluginState.openStream_eq (s : PluginState) :
    s.openStream =
      { s with sseStarted := true, sseSweeping := s.sseSweeping || !s.sseStarted } := by
  unfold openStream
  split_ifs with hstarted
  · cases s
    simp_all
  · simp [hstarted]

/-- A shutdown with nobody registered. -/
theorem PluginState.shutdown_of_none (h : s.server = none) :
    s.shutdown = { s with sseSweeping := s.sseSweeping && !s.sseStarted } := by
  cases s
  cases h
  unfold shutdown
  dsimp only
  split_ifs with hstarted
  · simp [hstarted]
  · simp [hstarted]

/-- A shutdown of the registered server. -/
theorem PluginState.shutdown_of_some {n : ℕ} (h : s.server = some n) :
    s.shutdown =
      { s with
        server := none
        sweeping := s.sweeping.filter (· ≠ n)
        serving := s.serving.erase n
        leaving := n :: s.leaving
        sseSweeping := s.sseSweeping && !s.sseStarted } := by
  unfold shutdown
  rw [h]
  dsimp only
  split_ifs with hstarted
  · simp [hstarted]
  · simp [hstarted]

/-- What an announcement does to the threads. -/
theorem handleAnnounce_snd (a : Announcement) (launch : Launch) (s : PluginState) :
    (handleAnnounce a launch s).2 =
      if a.registryUrl = "" then s else (startA2aServer launch s).2 := by
  unfold handleAnnounce
  split_ifs <;> rfl

theorem PluginState.Kept.on (h : s.Kept) (o : PluginOp) : (o.on s).Kept := by
  cases o with
  | load identified launch metricsLog =>
      change (s.load identified launch metricsLog).Kept
      rcases s.load_cases identified launch metricsLog with ⟨-, heq⟩ | ⟨-, logging, heq, -⟩
      · rwa [heq]
      · rw [heq]
        exact ⟨(h.start launch).single, (h.start launch).registered⟩
  | announce a launch =>
      change (handleAnnounce a launch s).2.Kept
      rw [handleAnnounce_snd]
      split_ifs
      · exact h
      · exact h.start launch
  | openStream =>
      change s.openStream.Kept
      rw [s.openStream_eq]
      exact ⟨h.single, h.registered⟩
  | shutdown =>
      change s.shutdown.Kept
      cases hserver : s.server with
      | none =>
          rw [PluginState.shutdown_of_none hserver]
          exact ⟨h.single, h.registered⟩
      | some n =>
          rw [PluginState.shutdown_of_some hserver]
          exact ⟨Or.inl (by simp [h.registered n hserver]), fun _ h => nomatch h⟩
  | clear => exact ⟨h.single, fun _ h => nomatch h⟩
  | ended n => exact ⟨h.single, h.registered⟩
  | sweepFailed n => exact ⟨h.single, h.registered⟩
  | watchdogFailed n => exact ⟨h.single, h.registered⟩

/-- A server that serves unregistered: a thread is alive, and nothing is known of it. -/
def PluginState.Stranded (n : ℕ) (s : PluginState) : Prop :=
  s.serving = [n] ∧ s.process = some n ∧ s.server = none

/-- **A stranded server is never stopped.** -/
theorem PluginState.Stranded.on {n : ℕ} (h : s.Stranded n) (o : PluginOp) :
    (o.on s).Stranded n := by
  obtain ⟨hserving, hprocess, hserver⟩ := h
  have halive : s.alive = true := by
    unfold alive
    rw [hprocess, hserving]
    simp
  have hstart : ∀ launch, startA2aServer launch s = (true, s) := by
    intro launch
    unfold startA2aServer
    rw [if_pos halive]
  cases o with
  | load identified launch metricsLog =>
      change (s.load identified launch metricsLog).Stranded n
      rcases s.load_cases identified launch metricsLog with ⟨-, heq⟩ | ⟨-, logging, heq, -⟩
      · rw [heq]
        exact ⟨hserving, hprocess, hserver⟩
      · rw [heq, hstart]
        exact ⟨hserving, hprocess, hserver⟩
  | announce a launch =>
      change (handleAnnounce a launch s).2.Stranded n
      rw [handleAnnounce_snd, hstart, ite_self]
      exact ⟨hserving, hprocess, hserver⟩
  | openStream =>
      change s.openStream.Stranded n
      rw [s.openStream_eq]
      exact ⟨hserving, hprocess, hserver⟩
  | shutdown =>
      change s.shutdown.Stranded n
      rw [PluginState.shutdown_of_none hserver]
      exact ⟨hserving, hprocess, hserver⟩
  | clear => exact ⟨hserving, hprocess, rfl⟩
  | ended m => exact ⟨hserving, hprocess, hserver⟩
  | sweepFailed m => exact ⟨hserving, hprocess, hserver⟩
  | watchdogFailed m => exact ⟨hserving, hprocess, hserver⟩

/-- Unless the runtime state is cleared, whoever serves is registered. -/
theorem registered_on {o : PluginOp} (hclear : o ≠ .clear) (hkept : s.Kept)
    (h : ∀ n ∈ s.serving, s.server = some n) : ∀ n ∈ (o.on s).serving, (o.on s).server = some n := by
  have hstart : ∀ launch, ∀ n ∈ (startA2aServer launch s).2.serving,
      (startA2aServer launch s).2.server = some n := by
    intro launch
    rcases startA2aServer_cases launch s with ⟨-, heq⟩ | ⟨halive, s₁, hbuilt, heq | ⟨n, heq⟩⟩
    · rwa [heq]
    · rw [heq, hbuilt.rest]
      exact h
    · rw [heq, hbuilt.rest]
      intro m hm
      have hone : m ∈ n :: s.serving := hm
      rw [(hkept.serving_eq_nil halive).1] at hone
      rw [List.mem_singleton.mp hone]
      rfl
  cases o with
  | load identified launch metricsLog =>
      change ∀ n ∈ (s.load identified launch metricsLog).serving,
        (s.load identified launch metricsLog).server = some n
      rcases s.load_cases identified launch metricsLog with ⟨-, heq⟩ | ⟨-, logging, heq, -⟩
      · rwa [heq]
      · rw [heq]
        exact hstart launch
  | announce a launch =>
      change ∀ n ∈ (handleAnnounce a launch s).2.serving, (handleAnnounce a launch s).2.server = some n
      rw [handleAnnounce_snd]
      split_ifs
      · exact h
      · exact hstart launch
  | openStream =>
      change ∀ n ∈ s.openStream.serving, s.openStream.server = some n
      rw [s.openStream_eq]
      exact h
  | shutdown =>
      have hnone : s.shutdown.serving = [] := by
        cases hserver : s.server with
        | none =>
            rw [PluginState.shutdown_of_none hserver]
            exact List.eq_nil_iff_forall_not_mem.mpr fun n hn => nomatch hserver.symm.trans (h n hn)
        | some n =>
            rw [PluginState.shutdown_of_some hserver]
            simp [hkept.registered n hserver]
      change ∀ n ∈ s.shutdown.serving, _
      rw [hnone]
      exact fun _ h => nomatch h
  | clear => exact absurd rfl hclear
  | ended n => exact h
  | sweepFailed n => exact h
  | watchdogFailed n => exact h

end Steps

/-- The requests that an operation sends to a registry, if it is an announcement, and what it
answers. -/
def PluginOp.announced? (o : PluginOp) (s : PluginState) : Option (Json × List (String × Json)) :=
  match o with
  | announce a launch => some (handleAnnounce a launch s).1
  | _ => none

/-- **No announcement is ever made**: `_start_a2a_server` returns no server. -/
theorem not_announced {o : PluginOp} {s : PluginState} {answer : Json}
    {sent : List (String × Json)} (h : o.announced? s = some (answer, sent)) :
    sent = [] ∧ answer.field? "announced" = some (.bool false) := by
  cases o with
  | announce a launch =>
      have heq : (handleAnnounce a launch s).1 = (answer, sent) := Option.some.inj h
      unfold handleAnnounce at heq
      split_ifs at heq
      · cases heq
        exact ⟨rfl, rfl⟩
      · generalize startA2aServer launch s = result at heq
        obtain ⟨_ | _, s₁⟩ := result
        · cases heq
          exact ⟨rfl, rfl⟩
        · cases heq
          exact ⟨rfl, rfl⟩
  | _ => cases h

/-- **The servers of a run**: one serves at most, and the one that is registered does.  Whoever
serves unregistered does so for ever; it takes a cleared runtime state to come to that.  An
announcement that is given a registry leaves a server alive wherever the worker script is there,
the environment can be read and a port can be bound, whatever the identity, and is never made. -/
structure ServersKept (ops : List PluginOp) : Prop where
  single : (run PluginOp.on ops .init).serving.length ≤ 1
  registered : ∀ n, (run PluginOp.on ops .init).server = some n →
    n ∈ (run PluginOp.on ops .init).serving
  known : PluginOp.clear ∉ ops → ∀ n ∈ (run PluginOp.on ops .init).serving,
    (run PluginOp.on ops .init).server = some n
  stranded : ∀ n ∈ (run PluginOp.on ops .init).serving,
    (run PluginOp.on ops .init).server ≠ some n →
      ∀ more, n ∈ (run PluginOp.on (ops ++ more) .init).serving
  started : ∀ a launch, a.registryUrl ≠ "" → launch.Succeeds →
    (run PluginOp.on (ops ++ [.announce a launch]) .init).alive = true
  unannounced : Each PluginOp.on (fun o s => ∀ answer sent, o.announced? s = some (answer, sent) →
    sent = [] ∧ answer.field? "announced" = some (.bool false)) ops .init

theorem servers_kept (ops : List PluginOp) : ServersKept ops := by
  have hkept : (run PluginOp.on ops .init).Kept :=
    run_invariant (fun o s h => h.on o) ops PluginState.kept_init
  refine ⟨?_, fun n hn => ?_, fun hclear => ?_, fun n hn hserver more => ?_,
    fun a launch hurl hsucceeds => ?_, ?_⟩
  · rcases hkept.single with hnone | ⟨n, hone, -⟩
    · rw [hnone]
      exact Nat.zero_le 1
    · rw [hone]
      exact Nat.le_refl 1
  · rw [hkept.registered n hn]
    exact List.mem_singleton.mpr rfl
  · have hops : ∀ o ∈ ops, o ≠ .clear := fun o ho heq => hclear (heq ▸ ho)
    have hrun := run_invariant_of_mem
      (I := fun s : PluginState => s.Kept ∧ ∀ n ∈ s.serving, s.server = some n)
      (fun o s ho h => ⟨h.1.on o, registered_on ho h.1 h.2⟩) hops
      ⟨PluginState.kept_init, fun _ h => nomatch h⟩
    exact hrun.2
  · have hstranded : (run PluginOp.on ops .init).Stranded n := by
      rcases hkept.single with hnone | ⟨m, hone, hprocess⟩
      · rw [hnone] at hn
        cases hn
      · rw [hone] at hn
        obtain rfl := List.mem_singleton.mp hn
        refine ⟨hone, hprocess, Option.eq_none_iff_forall_not_mem.mpr fun k hk => ?_⟩
        have hsame := hkept.registered k hk
        rw [hone] at hsame
        exact hserver (List.singleton_injective hsame ▸ hk)
    rw [run_append]
    have hlater := run_invariant (I := fun s : PluginState => s.Stranded n)
      (fun o s h => h.on o) more hstranded
    rw [hlater.1]
    exact List.mem_singleton.mpr rfl
  · rw [run_append]
    change (handleAnnounce a launch _).2.alive = true
    rw [handleAnnounce_snd, if_neg hurl]
    exact alive_of_succeeds hsucceeds
  · exact each_of_forall (fun o s answer sent h => not_announced h) ops PluginState.init

/-! ### The background threads -/

/-- How many servers an operation begins. -/
def PluginOp.begins : PluginOp → PluginState → ℕ
  | load identified launch _, s => if identified = true then launch.begins s else 0
  | announce a launch, s => if a.registryUrl = "" then 0 else launch.begins s
  | _, _ => 0

/-- The operation begins this server. -/
def PluginOp.Begins (n : ℕ) (o : PluginOp) (s : PluginState) : Prop :=
  s.begun ≤ n ∧ n < s.begun + o.begins s

/-- The operation ends the sweep of this server's rate limiter. -/
def PluginOp.EndsSweep (n : ℕ) (o : PluginOp) (s : PluginState) : Prop :=
  (o = .shutdown ∧ s.server = some n) ∨ o = .sweepFailed n

/-- The operation has the metrics logged. -/
def PluginOp.Logs (o : PluginOp) (s : PluginState) : Prop :=
  ∃ launch, o = .load true launch .on ∧ (startA2aServer launch s).1 = true

/-- The operation ends the logging of the metrics. -/
def PluginOp.EndsLog (o : PluginOp) (s : PluginState) : Prop :=
  o = .clear ∨ ∃ launch, o = .load true launch .refused ∧ (startA2aServer launch s).1 = true

section Threads

variable {s : PluginState}

/-- **What a start adds to the threads.** -/
structure Starts (launch : Launch) (s s' : PluginState) : Prop where
  begun : s'.begun = s.begun + launch.begins s
  watching : ∀ n, n ∈ s'.watching ↔
    (s.begun ≤ n ∧ n < s.begun + launch.begins s) ∨ n ∈ s.watching
  sweeping : ∀ n, n ∈ s'.sweeping ↔
    (s.begun ≤ n ∧ n < s.begun + launch.begins s) ∨ n ∈ s.sweeping
  sseStarted : s'.sseStarted = s.sseStarted
  sseSweeping : s'.sseSweeping = s.sseSweeping
  logging : s'.logging = s.logging

theorem Starts.of_built {launch : Launch} {s' : PluginState} (h : Built (launch.begins s) s s') :
    Starts launch s s' where
  begun := h.begun
  watching n := by rw [h.watching, h.begun]
  sweeping n := by rw [h.sweeping, h.begun]
  sseStarted := by rw [h.rest]
  sseSweeping := by rw [h.rest]
  logging := by rw [h.rest]

theorem starts_startA2aServer (launch : Launch) (s : PluginState) :
    Starts launch s (startA2aServer launch s).2 := by
  rcases startA2aServer_cases launch s with ⟨halive, heq⟩ | ⟨-, s₁, hbuilt, heq | ⟨n, heq⟩⟩
  · have hnone : launch.begins s = 0 := if_pos (Or.inl halive)
    rw [heq]
    exact Starts.of_built (by rw [hnone]; exact Built.refl s)
  · rw [heq]
    exact Starts.of_built hbuilt
  · have hstarts := Starts.of_built hbuilt
    rw [heq]
    exact ⟨hstarts.begun, hstarts.watching, hstarts.sweeping, hstarts.sseStarted,
      hstarts.sseSweeping, hstarts.logging⟩

/-- **What an operation does to the threads.** -/
structure ThreadsOn (o : PluginOp) (s s' : PluginState) : Prop where
  begun : s'.begun = s.begun + o.begins s
  watching : ∀ n, n ∈ s'.watching ↔ o.Begins n s ∨ (n ∈ s.watching ∧ ¬ o = .watchdogFailed n)
  sweeping : ∀ n, n ∈ s'.sweeping ↔ o.Begins n s ∨ (n ∈ s.sweeping ∧ ¬ o.EndsSweep n s)
  sseStarted : s'.sseStarted = true ↔ o = .openStream ∨ s.sseStarted = true
  sseSweeping : s'.sseSweeping = true ↔ (o = .openStream ∧ s.sseStarted = false) ∨
    (s.sseSweeping = true ∧ ¬ (o = .shutdown ∧ s.sseStarted = true))
  logging : s'.logging = true ↔ o.Logs s ∨ (s.logging = true ∧ ¬ o.EndsLog s)

/-- An operation that starts nothing begins no server. -/
theorem PluginOp.not_begins {o : PluginOp} (h : o.begins s = 0) (n : ℕ) : ¬ o.Begins n s := by
  unfold Begins
  omega

/-- Only a load has the metrics logged. -/
theorem PluginOp.not_logs {o : PluginOp} (h : ∀ launch, o ≠ .load true launch .on) :
    ¬ o.Logs s := by
  rintro ⟨launch, heq, -⟩
  exact h launch heq

/-- Only a load and a clear end the logging. -/
theorem PluginOp.not_endsLog {o : PluginOp} (hclear : o ≠ .clear)
    (h : ∀ launch, o ≠ .load true launch .refused) : ¬ o.EndsLog s := by
  rintro (heq | ⟨launch, heq, -⟩)
  · exact hclear heq
  · exact h launch heq

/-- An operation that starts nothing, and leaves the metrics logger as it is. -/
theorem threadsOn_of_quiet {o : PluginOp} {s' : PluginState} (hbegins : o.begins s = 0)
    (hlogs : ¬ o.Logs s) (hendsLog : ¬ o.EndsLog s) (hbegun : s'.begun = s.begun)
    (hlogging : s'.logging = s.logging)
    (hwatching : ∀ n, n ∈ s'.watching ↔ n ∈ s.watching ∧ ¬ o = .watchdogFailed n)
    (hsweeping : ∀ n, n ∈ s'.sweeping ↔ n ∈ s.sweeping ∧ ¬ o.EndsSweep n s)
    (hstarted : s'.sseStarted = true ↔ o = .openStream ∨ s.sseStarted = true)
    (hsse : s'.sseSweeping = true ↔ (o = .openStream ∧ s.sseStarted = false) ∨
      (s.sseSweeping = true ∧ ¬ (o = .shutdown ∧ s.sseStarted = true))) : ThreadsOn o s s' where
  begun := by rw [hbegun, hbegins, Nat.add_zero]
  watching n := by rw [hwatching, or_iff_right (PluginOp.not_begins hbegins n)]
  sweeping n := by rw [hsweeping, or_iff_right (PluginOp.not_begins hbegins n)]
  sseStarted := hstarted
  sseSweeping := hsse
  logging := by rw [hlogging, or_iff_right hlogs, and_iff_left hendsLog]

/-- A load that gets to its start. -/
theorem threadsOn_load (launch : Launch) (metricsLog : MetricsLog) (s : PluginState) :
    ThreadsOn (.load true launch metricsLog) s (s.load true launch metricsLog) := by
  have hstarts := starts_startA2aServer launch s
  obtain ⟨logging, heq, hlogging⟩ :=
    (s.load_cases true launch metricsLog).elim (fun h => nomatch h.1) And.right
  have hlogs : (PluginOp.load true launch metricsLog).Logs s ↔
      (startA2aServer launch s).1 = true ∧ metricsLog = .on := by
    constructor
    · rintro ⟨launch', heq, hstarted⟩
      cases heq
      exact ⟨hstarted, rfl⟩
    · rintro ⟨hstarted, rfl⟩
      exact ⟨launch, rfl, hstarted⟩
  have hends : (PluginOp.load true launch metricsLog).EndsLog s ↔
      (startA2aServer launch s).1 = true ∧ metricsLog = .refused := by
    constructor
    · rintro (heq | ⟨launch', heq, hstarted⟩)
      · cases heq
      · cases heq
        exact ⟨hstarted, rfl⟩
    · rintro ⟨hstarted, rfl⟩
      exact Or.inr ⟨launch, rfl, hstarted⟩
  rw [heq]
  refine ⟨hstarts.begun, fun n => ?_, fun n => ?_, ?_, ?_, ?_⟩
  · simp [hstarts.watching, PluginOp.Begins, PluginOp.begins]
  · simp [hstarts.sweeping, PluginOp.Begins, PluginOp.begins, PluginOp.EndsSweep]
  · simp [hstarts.sseStarted]
  · simp [hstarts.sseSweeping]
  · rw [hlogs, hends, ← hstarts.logging]
    exact hlogging

theorem threadsOn_announce (a : Announcement) (launch : Launch) (s : PluginState) :
    ThreadsOn (.announce a launch) s (handleAnnounce a launch s).2 := by
  have hlogs : ¬ (PluginOp.announce a launch).Logs s := PluginOp.not_logs nofun
  have hends : ¬ (PluginOp.announce a launch).EndsLog s := PluginOp.not_endsLog nofun nofun
  rw [handleAnnounce_snd]
  split_ifs with hurl
  · have hbegins : (PluginOp.announce a launch).begins s = 0 := if_pos hurl
    exact threadsOn_of_quiet hbegins hlogs hends rfl rfl (by simp) (by simp [PluginOp.EndsSweep])
      (by simp) (by simp)
  · have hstarts := starts_startA2aServer launch s
    refine ⟨?_, fun n => ?_, fun n => ?_, ?_, ?_, ?_⟩
    · rw [hstarts.begun, PluginOp.begins, if_neg hurl]
    · simp [hstarts.watching, PluginOp.Begins, PluginOp.begins, hurl]
    · simp [hstarts.sweeping, PluginOp.Begins, PluginOp.begins, PluginOp.EndsSweep, hurl]
    · simp [hstarts.sseStarted]
    · simp [hstarts.sseSweeping]
    · simp [hlogs, hends, hstarts.logging]

theorem threadsOn_shutdown (s : PluginState) : ThreadsOn .shutdown s s.shutdown := by
  have hlogs : ¬ PluginOp.shutdown.Logs s := PluginOp.not_logs nofun
  have hends : ¬ PluginOp.shutdown.EndsLog s := PluginOp.not_endsLog nofun nofun
  cases hserver : s.server with
  | none =>
      rw [PluginState.shutdown_of_none hserver]
      exact threadsOn_of_quiet rfl hlogs hends rfl rfl (by simp)
        (by simp [PluginOp.EndsSweep, hserver]) (by simp) (by simp)
  | some n =>
      rw [PluginState.shutdown_of_some hserver]
      exact threadsOn_of_quiet rfl hlogs hends rfl rfl (by simp)
        (fun m => by simp [PluginOp.EndsSweep, hserver, @eq_comm ℕ n m]) (by simp) (by simp)

theorem threadsOn (o : PluginOp) (s : PluginState) : ThreadsOn o s (o.on s) := by
  cases o with
  | load identified launch metricsLog =>
      cases identified with
      | true => exact threadsOn_load launch metricsLog s
      | false =>
          exact threadsOn_of_quiet rfl (PluginOp.not_logs nofun) (PluginOp.not_endsLog nofun nofun)
            rfl rfl (by simp [PluginOp.on, PluginState.load])
            (by simp [PluginOp.on, PluginState.load, PluginOp.EndsSweep])
            (by simp [PluginOp.on, PluginState.load]) (by simp [PluginOp.on, PluginState.load])
  | announce a launch => exact threadsOn_announce a launch s
  | openStream =>
      change ThreadsOn _ s s.openStream
      rw [s.openStream_eq]
      exact threadsOn_of_quiet rfl (PluginOp.not_logs nofun) (PluginOp.not_endsLog nofun nofun)
        rfl rfl (by simp) (by simp [PluginOp.EndsSweep]) (by simp) (by simp [or_comm])
  | shutdown => exact threadsOn_shutdown s
  | clear =>
      have hlogs : ¬ PluginOp.clear.Logs s := PluginOp.not_logs nofun
      have hends : PluginOp.clear.EndsLog s := Or.inl rfl
      have hbegins := PluginOp.not_begins (o := .clear) (s := s) rfl
      exact ⟨rfl, by simp [PluginOp.on, hbegins],
        by simp [PluginOp.on, hbegins, PluginOp.EndsSweep], by simp [PluginOp.on],
        by simp [PluginOp.on], by simp [PluginOp.on, hlogs, hends]⟩
  | ended n =>
      exact threadsOn_of_quiet rfl (PluginOp.not_logs nofun) (PluginOp.not_endsLog nofun nofun)
        rfl rfl (by simp [PluginOp.on]) (by simp [PluginOp.on, PluginOp.EndsSweep])
        (by simp [PluginOp.on]) (by simp [PluginOp.on])
  | sweepFailed n =>
      exact threadsOn_of_quiet rfl (PluginOp.not_logs nofun) (PluginOp.not_endsLog nofun nofun)
        rfl rfl (by simp [PluginOp.on])
        (fun m => by simp [PluginOp.on, PluginOp.EndsSweep, @eq_comm ℕ n m])
        (by simp [PluginOp.on]) (by simp [PluginOp.on])
  | watchdogFailed n =>
      exact threadsOn_of_quiet rfl (PluginOp.not_logs nofun) (PluginOp.not_endsLog nofun nofun)
        rfl rfl (fun m => by simp [PluginOp.on, @eq_comm ℕ n m])
        (by simp [PluginOp.on, PluginOp.EndsSweep])
        (by simp [PluginOp.on]) (by simp [PluginOp.on])

/-- **The rule of latches for the plugin**: a thread is there if and only if it was started and has
not ended since. -/
theorem thread_iff (there : PluginState → Prop) (started ended : PluginOp → PluginState → Prop)
    (hstep : ∀ o s, there (o.on s) ↔ started o s ∨ (there s ∧ ¬ ended o s))
    (hinit : ¬ there PluginState.init) (ops : List PluginOp) :
    there (run PluginOp.on ops .init) ↔ ∃ before o after, ops = before ++ o :: after ∧
      started o (run PluginOp.on before .init) ∧
      Each PluginOp.on (fun o s => ¬ ended o s) after (o.on (run PluginOp.on before .init)) := by
  have hlatch := latch_iff (I := fun _ => True) there started ended (fun _ _ _ => trivial)
    (fun o s _ => hstep o s) ops (s := PluginState.init) trivial
  exact hlatch.trans (or_iff_left fun h => hinit h.1)

/-- A stream has been opened. -/
theorem sseStarted_iff (ops : List PluginOp) :
    (run PluginOp.on ops .init).sseStarted = true ↔ .openStream ∈ ops := by
  have hthread := thread_iff (fun s => s.sseStarted = true) (fun o _ => o = .openStream)
    (fun _ _ => False) (fun o s => by simp [(threadsOn o s).sseStarted]) nofun ops
  rw [hthread]
  constructor
  · rintro ⟨before, o, after, rfl, rfl, -⟩
    exact List.mem_append_right _ List.mem_cons_self
  · intro h
    obtain ⟨before, after, rfl⟩ := List.append_of_mem h
    exact ⟨before, _, after, rfl, rfl, each_of_forall (fun _ _ => not_false) _ _⟩

/-- Once a stream was opened, every shutdown ends the sweeps. -/
theorem each_not_shutdown {ops : List PluginOp} (hstarted : s.sseStarted = true) :
    Each PluginOp.on (fun o s => ¬ (o = .shutdown ∧ s.sseStarted = true)) ops s ↔
      .shutdown ∉ ops := by
  induction ops generalizing s with
  | nil => exact iff_of_true trivial List.not_mem_nil
  | cons o ops ih =>
      have hnext := (threadsOn o s).sseStarted.mpr (Or.inr hstarted)
      rw [Each, ih hnext, List.mem_cons, not_or]
      refine and_congr_left fun _ => not_congr ?_
      exact ⟨fun h => h.1.symm, fun h => ⟨h.symm, hstarted⟩⟩

end Threads

/-- **The background threads of a run.**  As many servers are begun as ports are tried, also where
the port is in use.  The watchdog of a server is there from then on unless its `time.sleep` raises,
and the sweep of its rate limiter unless one raises, or the server is shut down while registered.
Idle streams are closed from the first stream on until the next shutdown, and never again after
that.  The metrics are logged from a load on that finds a number for the interval, until the state
is cleared or a later load does not. -/
structure ThreadsAccounted (ops : List PluginOp) : Prop where
  begun : (run PluginOp.on ops .init).begun = tally PluginOp.on PluginOp.begins ops .init
  watchdogs : ∀ n, n ∈ (run PluginOp.on ops .init).watching ↔ ∃ before o after,
    ops = before ++ o :: after ∧ o.Begins n (run PluginOp.on before .init) ∧
      .watchdogFailed n ∉ after
  sweeps : ∀ n, n ∈ (run PluginOp.on ops .init).sweeping ↔ ∃ before o after,
    ops = before ++ o :: after ∧ o.Begins n (run PluginOp.on before .init) ∧
      Each PluginOp.on (fun o s => ¬ o.EndsSweep n s) after (o.on (run PluginOp.on before .init))
  idle : (run PluginOp.on ops .init).sseSweeping = true ↔ ∃ before after,
    ops = before ++ .openStream :: after ∧ PluginOp.openStream ∉ before ∧ PluginOp.shutdown ∉ after
  metrics : (run PluginOp.on ops .init).logging = true ↔ ∃ before o after,
    ops = before ++ o :: after ∧ o.Logs (run PluginOp.on before .init) ∧
      Each PluginOp.on (fun o s => ¬ o.EndsLog s) after (o.on (run PluginOp.on before .init))

theorem threads_accounted (ops : List PluginOp) : ThreadsAccounted ops := by
  refine ⟨?_, fun n => ?_, fun n => ?_, ?_, ?_⟩
  · have haccount := run_account (I := fun _ => True) PluginState.begun PluginOp.begins
      (fun _ _ => 0) (fun _ _ _ => trivial) (fun o s _ => (threadsOn o s).begun) ops
      (s := PluginState.init) trivial
    rw [tally_zero] at haccount
    exact haccount.trans (Nat.zero_add _)
  · rw [thread_iff (fun s => n ∈ s.watching) (PluginOp.Begins n) (fun o _ => o = .watchdogFailed n)
      (fun o s => (threadsOn o s).watching n) List.not_mem_nil]
    have hnever : ∀ (after : List PluginOp) s,
        Each PluginOp.on (fun o _ => ¬ o = PluginOp.watchdogFailed n) after s ↔
          .watchdogFailed n ∉ after := by
      intro after s
      rw [each_const]
      exact ⟨fun h hmem => h _ hmem rfl, fun h o ho heq => h (heq ▸ ho)⟩
    simp only [hnever]
  · exact thread_iff (fun s => n ∈ s.sweeping) (PluginOp.Begins n) (PluginOp.EndsSweep n)
      (fun o s => (threadsOn o s).sweeping n) List.not_mem_nil ops
  · rw [thread_iff (fun s => s.sseSweeping = true)
      (fun o s => o = PluginOp.openStream ∧ s.sseStarted = false)
      (fun o s => o = PluginOp.shutdown ∧ s.sseStarted = true)
      (fun o s => (threadsOn o s).sseSweeping) nofun]
    constructor
    · rintro ⟨before, o, after, rfl, ⟨rfl, hfirst⟩, hafter⟩
      refine ⟨before, after, rfl, fun hmem => ?_, ?_⟩
      · rw [(sseStarted_iff before).mpr hmem] at hfirst
        cases hfirst
      · refine (each_not_shutdown ?_).mp hafter
        exact (threadsOn .openStream _).sseStarted.mpr (Or.inl rfl)
    · rintro ⟨before, after, rfl, hfirst, hafter⟩
      have hnone := Bool.eq_false_of_not_eq_true fun h => hfirst ((sseStarted_iff before).mp h)
      refine ⟨before, _, after, rfl, ⟨rfl, hnone⟩, (each_not_shutdown ?_).mpr hafter⟩
      exact (threadsOn .openStream _).sseStarted.mpr (Or.inl rfl)
  · exact thread_iff (fun s => s.logging = true) PluginOp.Logs PluginOp.EndsLog
      (fun o s => (threadsOn o s).logging) nofun ops

end HermesA2A
