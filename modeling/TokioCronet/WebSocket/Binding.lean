import Mathlib.Data.List.Basic
import Mathlib.Tactic.SplitIfs

/-!
# The network a WebSocket is bound to

`cronet_rs_bind.cc` keeps the handle that each engine was bound to last, in a table of
the whole process. `Connect` does not read it: the task that it posts does, when the
network thread comes to it. What was bound in between is what the connection gets.
-/

namespace TokioCronet.Binding

/-- The address of a `Cronet_EngineImpl`; 0 is null. -/
abbrev Engine := Nat

/-- `CRONET_RS_UNBIND_NETWORK_HANDLE` -/
def unbindNetworkHandle : Int := -1

/-- What Chromium decides: whether an engine has a request context, whether a URL is a valid
one of scheme `ws` or `wss`, and for which networks there is a `URLRequestContext`. -/
structure Chromium where
  started : Engine → Bool
  isWebSocketUrl : String → Bool
  hasContext : Int → Bool

/-- The arguments of `ConnectOnNetworkThread`. -/
structure ConnectTask where
  socket : Nat
  engine : Engine
  url : String

/-- What an observer sees. -/
inductive Event where
  /-- `Connect` posts its task; the handle is the one that is bound at that time. -/
  | posted (socket : Nat) (bound : Int)
  | failed (socket : Nat) (message : String) (netError : Int)
  /-- The channel is created with the context of the handle. -/
  | channel (socket : Nat) (handle : Int)
  deriving DecidableEq

/-- The table, the network thread's tasks, and the sockets that were created. -/
structure Process where
  boundNetworks : List (Engine × Int) := []
  tasks : List ConnectTask := []
  sockets : Nat := 0
  trace : List Event := []

variable {env : Chromium} {p : Process}

/-! ## The program -/

/-- `Cronet_RS_Engine_BindToNetwork`, as `Engine::bind_to_network` and the end of
`NativeEngine::shutdown` call it. -/
def Process.bindToNetwork (p : Process) (engine : Engine) (handle : Int) : Process :=
  if engine = 0 ∨ handle = unbindNetworkHandle then
    { p with boundNetworks := p.boundNetworks.filter fun b => b.1 ≠ engine }
  else
    { p with boundNetworks := (engine, handle) :: p.boundNetworks.filter fun b => b.1 ≠ engine }

/-- `Cronet_RS_Engine_GetBoundNetwork` -/
def Process.boundNetwork (p : Process) (engine : Engine) : Int :=
  match p.boundNetworks.find? fun b => b.1 = engine with
  | none => unbindNetworkHandle
  | some (_, handle) => handle

/-- `NotifyFailure` -/
def Process.notifyFailure (p : Process) (socket : Nat) (message : String) (netError : Int) :
    Process :=
  { p with trace := p.trace ++ [.failed socket message netError] }

/-- `open_websocket` up to its `Connect`: `Cronet_RS_WebSocket_Create` makes a new socket. -/
def Process.openWebSocket (env : Chromium) (p : Process) (engine : Engine) (url : String) :
    Process :=
  let created := { p with sockets := p.sockets + 1 }
  if engine = 0 ∨ env.started engine = false then
    created.notifyFailure p.sockets "engine is not started" (-9)
  else
    { created with tasks := p.tasks ++ [⟨p.sockets, engine, url⟩],
                   trace := p.trace ++ [.posted p.sockets (p.boundNetwork engine)] }

/-- `ConnectOnNetworkThread` -/
def Process.connectOnNetworkThread (env : Chromium) (p : Process) (task : ConnectTask) :
    Process :=
  if env.isWebSocketUrl task.url = false then
    p.notifyFailure task.socket "WebSocket URL must use ws or wss" (-300)
  else if env.hasContext (p.boundNetwork task.engine) = false then
    p.notifyFailure task.socket "URLRequestContext is unavailable" (-9)
  else
    { p with trace := p.trace ++ [.channel task.socket (p.boundNetwork task.engine)] }

/-- A call of the application, or the network thread takes its next task. -/
inductive Action where
  | bindToNetwork (engine : Engine) (handle : Int)
  | openWebSocket (engine : Engine) (url : String)
  | runTask
  deriving DecidableEq

/-- One action. -/
def step (env : Chromium) (p : Process) : Action → Process
  | .bindToNetwork engine handle => p.bindToNetwork engine handle
  | .openWebSocket engine url => p.openWebSocket env engine url
  | .runTask =>
    match p.tasks with
    | [] => p
    | task :: tasks => { p with tasks := tasks }.connectOnNetworkThread env task

/-- What a sequence of actions leads to. -/
def run (env : Chromium) (p : Process) (actions : List Action) : Process :=
  actions.foldl (step env) p

/-! ## Which network a connection gets -/

/-- Every channel was created with the handle that was bound when `Connect` was called for
its socket. -/
def BoundAtConnect (p : Process) : Prop :=
  ∀ socket handle, .channel socket handle ∈ p.trace →
    .posted socket handle ∈ p.trace ∧ ∀ bound, .posted socket bound ∈ p.trace → bound = handle

/-- No engine is bound to another network while a task of one of its sockets is waiting, unless
the task will refuse its URL. -/
def Undisturbed (env : Chromium) (p : Process) : Action → Prop
  | .bindToNetwork engine handle => ∀ task ∈ p.tasks, env.isWebSocketUrl task.url = true →
      (p.bindToNetwork engine handle).boundNetwork task.engine = p.boundNetwork task.engine
  | _ => True

/-- Every step of a sequence is undisturbed. -/
def AllUndisturbed (env : Chromium) (p : Process) : List Action → Prop
  | [] => True
  | a :: actions => Undisturbed env p a ∧ AllUndisturbed env (step env p a) actions

/-- A task waits while what was bound at its `Connect` is still bound. -/
structure BindingInv (env : Chromium) (p : Process) : Prop where
  /-- The sockets of the trace were made. -/
  fresh : ∀ socket bound, .posted socket bound ∈ p.trace → socket < p.sockets
  /-- A socket is connected once. -/
  posted : ∀ socket b b', .posted socket b ∈ p.trace → .posted socket b' ∈ p.trace → b = b'
  /-- What its task will find is what was bound at its `Connect`. -/
  waiting : ∀ task ∈ p.tasks, env.isWebSocketUrl task.url = true →
    .posted task.socket (p.boundNetwork task.engine) ∈ p.trace
  /-- What its channel was given is that too. -/
  channels : ∀ socket handle, .channel socket handle ∈ p.trace →
    .posted socket handle ∈ p.trace

theorem binding_init : BindingInv env {} where
  fresh _ _ h := absurd h List.not_mem_nil
  posted _ _ _ h := absurd h List.not_mem_nil
  waiting _ h := absurd h List.not_mem_nil
  channels _ _ h := absurd h List.not_mem_nil

theorem binding_bind {engine : Engine} {handle : Int} (hi : BindingInv env p)
    (hu : Undisturbed env p (.bindToNetwork engine handle)) :
    BindingInv env (p.bindToNetwork engine handle) := by
  have hsame : (p.bindToNetwork engine handle).tasks = p.tasks ∧
      (p.bindToNetwork engine handle).trace = p.trace ∧
      (p.bindToNetwork engine handle).sockets = p.sockets := by
    unfold Process.bindToNetwork
    split <;> exact ⟨rfl, rfl, rfl⟩
  obtain ⟨htasks, htrace, hsockets⟩ := hsame
  constructor
  · rw [htrace, hsockets]
    exact hi.fresh
  · rw [htrace]
    exact hi.posted
  · intro task ht hurl
    rw [htasks] at ht
    rw [htrace, hu task ht hurl]
    exact hi.waiting task ht hurl
  · rw [htrace]
    exact hi.channels

/-- A failure, or a channel that was created as its `Connect` asked for. -/
theorem binding_note {e : Event} (hi : BindingInv env p) (hposted : ∀ k b, e ≠ .posted k b)
    (hchannel : ∀ k h, e = .channel k h → .posted k h ∈ p.trace) :
    BindingInv env { p with trace := p.trace ++ [e] } := by
  have hold : ∀ k b, .posted k b ∈ p.trace ++ [e] → .posted k b ∈ p.trace := by
    intro k b hb
    rcases List.mem_append.mp hb with hb | hb
    · exact hb
    · exact absurd (List.mem_singleton.mp hb).symm (hposted k b)
  constructor
  · intro k b hb
    exact hi.fresh k b (hold k b hb)
  · intro k b b' hb hb'
    exact hi.posted k b b' (hold k b hb) (hold k b' hb')
  · intro task ht hurl
    exact List.mem_append_left _ (hi.waiting task ht hurl)
  · intro k h hh
    refine List.mem_append_left _ ?_
    rcases List.mem_append.mp hh with hh | hh
    · exact hi.channels k h hh
    · exact hchannel k h (List.mem_singleton.mp hh).symm

theorem binding_open {engine : Engine} {url : String} (hi : BindingInv env p) :
    BindingInv env (p.openWebSocket env engine url) := by
  have hcreated : BindingInv env { p with sockets := p.sockets + 1 } :=
    ⟨fun k b hb => Nat.lt_succ_of_lt (hi.fresh k b hb), hi.posted, hi.waiting, hi.channels⟩
  unfold Process.openWebSocket
  split
  · exact binding_note hcreated (fun _ _ => Event.noConfusion) fun _ _ h => Event.noConfusion h
  -- the task waits with what is bound now
  have hnew : ∀ k b, .posted k b ∈ p.trace ++ [.posted p.sockets (p.boundNetwork engine)] →
      .posted k b ∈ p.trace ∨ (k = p.sockets ∧ b = p.boundNetwork engine) := by
    intro k b hb
    rcases List.mem_append.mp hb with hb | hb
    · exact .inl hb
    · obtain ⟨hk, hb⟩ := Event.posted.inj (List.mem_singleton.mp hb)
      exact .inr ⟨hk, hb⟩
  constructor
  · intro k b hb
    rcases hnew k b hb with hb | ⟨rfl, -⟩
    · exact Nat.lt_succ_of_lt (hi.fresh k b hb)
    · exact Nat.lt_succ_self _
  · intro k b b' hb hb'
    rcases hnew k b hb with hb | ⟨rfl, rfl⟩
    · rcases hnew k b' hb' with hb' | ⟨rfl, -⟩
      · exact hi.posted k b b' hb hb'
      · exact absurd (hi.fresh _ b hb) (Nat.lt_irrefl _)
    · rcases hnew _ b' hb' with hb' | ⟨-, rfl⟩
      · exact absurd (hi.fresh _ b' hb') (Nat.lt_irrefl _)
      · rfl
  · intro task ht hurl
    rcases List.mem_append.mp ht with ht | ht
    · exact List.mem_append_left _ (hi.waiting task ht hurl)
    · rw [List.mem_singleton.mp ht]
      exact List.mem_append_right _ (List.mem_singleton_self _)
  · intro k h hh
    rcases List.mem_append.mp hh with hh | hh
    · exact List.mem_append_left _ (hi.channels k h hh)
    · exact absurd (List.mem_singleton.mp hh) (by simp)

/-- The task that is run finds what was bound at its `Connect`. -/
theorem binding_task (hi : BindingInv env p) : BindingInv env (step env p .runTask) := by
  cases htasks : p.tasks with
  | nil =>
    have hstep : step env p .runTask = p := by simp only [step, htasks]
    rw [hstep]
    exact hi
  | cons task tasks =>
    have hstep : step env p .runTask =
        ({ p with tasks := tasks } : Process).connectOnNetworkThread env task := by
      simp only [step, htasks]
    have hrest : BindingInv env { p with tasks := tasks } :=
      ⟨hi.fresh, hi.posted,
        fun t ht => hi.waiting t (by rw [htasks]; exact List.mem_cons_of_mem _ ht), hi.channels⟩
    have hwaiting := hi.waiting task (by rw [htasks]; exact List.mem_cons_self)
    rw [hstep, Process.connectOnNetworkThread]
    split_ifs with hurl
    · exact binding_note hrest (fun _ _ => Event.noConfusion) fun _ _ h => Event.noConfusion h
    · exact binding_note hrest (fun _ _ => Event.noConfusion) fun _ _ h => Event.noConfusion h
    · refine binding_note hrest (fun _ _ => Event.noConfusion) fun k h heq => ?_
      obtain ⟨rfl, rfl⟩ := Event.channel.inj heq
      exact hwaiting (by simpa using hurl)

theorem binding_step {a : Action} (hi : BindingInv env p) (hu : Undisturbed env p a) :
    BindingInv env (step env p a) := by
  cases a with
  | bindToNetwork engine handle => exact binding_bind hi hu
  | openWebSocket engine url => exact binding_open hi
  | runTask => exact binding_task hi

theorem binding_run {actions : List Action} (hi : BindingInv env p)
    (hu : AllUndisturbed env p actions) : BindingInv env (run env p actions) := by
  induction actions generalizing p with
  | nil => exact hi
  | cons a actions ih =>
    obtain ⟨ha, hactions⟩ := hu
    exact ih (binding_step hi ha) hactions

/-- **A connection gets the network that was bound when `Connect` was called for it**, in
every sequence of actions that binds no engine to another network while a task of one of
its sockets is waiting that will not refuse its URL. -/
theorem bound_at_connect (env : Chromium) (actions : List Action)
    (hu : AllUndisturbed env {} actions) : BoundAtConnect (run env {} actions) := by
  have hi := binding_run binding_init hu
  intro socket handle h
  have hposted := hi.channels socket handle h
  exact ⟨hposted, fun bound hb => hi.posted socket bound handle hb hposted⟩

/-- Every engine is started, every URL is valid, and there is a context for each network. -/
def permissive : Chromium := ⟨fun _ => true, fun _ => true, fun _ => true⟩

theorem bound_at_connect_in_turn :
    let actions := [.bindToNetwork 1 5, .openWebSocket 1 "wss://a", .runTask,
      .bindToNetwork 1 7, .openWebSocket 1 "wss://b", .runTask]
    (run permissive {} actions).trace =
        [.posted 0 5, .channel 0 5, .posted 1 7, .channel 1 7] ∧
      BoundAtConnect (run permissive {} actions) := by
  refine ⟨by decide, bound_at_connect permissive _ ?_⟩
  simp [AllUndisturbed, Undisturbed, step, Process.bindToNetwork, Process.openWebSocket,
    Process.connectOnNetworkThread, permissive, unbindNetworkHandle]

/-- **A bind that comes before the task** decides for a connection that was opened before it:
the channel is created for network 7, and 5 was bound at the `Connect`. -/
theorem bound_before_task :
    let p := run permissive {}
      [.bindToNetwork 1 5, .openWebSocket 1 "wss://a", .bindToNetwork 1 7, .runTask]
    p.trace = [.posted 0 5, .channel 0 7] ∧ ¬ BoundAtConnect p := by
  intro p
  have htrace : p.trace = [.posted 0 5, .channel 0 7] := by decide
  refine ⟨htrace, fun h => ?_⟩
  have hposted := (h 0 7 (by rw [htrace]; decide)).1
  rw [htrace] at hposted
  revert hposted
  decide

end TokioCronet.Binding
