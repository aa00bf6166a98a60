/-
**A lease cannot outlive its bounds.**

A lease ends 90 s after it began, and 5 s after its owner was last heard of: its BEGIN, a KEEPALIVE, or a
WRITE that was executed and left the lease standing. Those moments are read off the run itself
(`Lifetime`), and the two deadlines of the server are theirs (`Timed`). The tick that opens a dispatch ends
a lease that is past them (`tick_owner`), so no WRITE of an owner is executed after that; and what is
refused leaves the deadlines alone (`leaseBounds`).
-/

import OscmixDesk.Proof.Authority

namespace OscmixDesk.Backend

variable {outside : Outside}

/-! ### The moments that count -/

/-- When the lease began, and when its owner was last heard of. -/
structure Lifetime where
  begun : ℚ := 0
  active : ℚ := 0

/-- The server once the command of a WRITE has run. -/
def afterCommand (outside : Outside) (index : Slot) (token : UInt64) (data : List UInt8) (s : Server) :
    Server :=
  deliver outside (outside.command s.asked data).broadcasts (execute index token data s).next

/-- The moments of the lease after a served request, which `none` leaves as they were. -/
def renewed (outside : Outside) (index : Slot) (frame : Frame) (s : Server) (life : Lifetime) :
    Option Lifetime :=
  match frame.kind with
  | some .begin =>
      if (s.clients index).role = controlDesk ∧ s.owner = none then
        some ⟨outside.now s.asked, outside.now (s.asked + 1)⟩
      else none
  | some .keepalive =>
      if hasLease index frame.token s then some { life with active := outside.now s.asked } else none
  | some .write =>
      if authorized index frame.token s ∧ validCommand outside frame.data
          ∧ hasLease index frame.token (afterCommand outside index frame.token frame.data s) then
        some { life with
          active := outside.now (afterCommand outside index frame.token frame.data s).asked }
      else none
  | _ => none

open scoped Classical in
/-- The moments of the lease after an action. -/
noncomputable def Lifetime.after (outside : Outside) (s : Server) (action : Action) (life : Lifetime) :
    Lifetime :=
  match action with
  | .receive index (.packet (some frame)) =>
      if (s.clients index).fd ≠ none ∧ Served index frame (controlTick outside s) then
        (renewed outside index frame (atService outside index frame s) life).getD life
      else life
  | _ => life

/-- The moments of the lease after a run. -/
noncomputable def Lifetime.run (outside : Outside) : List Action → Server → Lifetime → Lifetime
  | [], _, life => life
  | action :: rest, s, life => run outside rest (act outside s action) (life.after outside s action)

/-- A request that gets a lease or is its owner's: a BEGIN while nobody has one, a KEEPALIVE of the owner,
or a valid WRITE of the owner. -/
def Accepted (outside : Outside) (index : Slot) (frame : Frame) (s : Server) : Prop :=
  match frame.kind with
  | some .begin => (s.clients index).role = controlDesk ∧ s.owner = none
  | some .keepalive => hasLease index frame.token s = true
  | some .write => hasLease index frame.token s = true ∧ validCommand outside frame.data = true
  | _ => False

/-- The action is such a request. -/
def Accepts (outside : Outside) (s : Server) (action : Action) : Prop :=
  ∃ index frame, Serving outside s action index frame
    ∧ Accepted outside index frame (atService outside index frame s)

/-! ### The three ends of a WRITE -/

section Write

variable {s : Server} {index : Slot} {token : UInt64} {data : List UInt8} {request : UInt32}

theorem write_denied (denied : authorized index token s = false) :
    write outside index request token data s = reply outside index .write request controlBusy s := by
  unfold authorized at denied
  unfold write
  rw [denied]
  rfl

theorem write_invalid (authority : authorized index token s = true)
    (invalid : validCommand outside data = false) :
    write outside index request token data s = reply outside index .write request controlInvalid s := by
  unfold authorized at authority
  unfold write
  rw [authority, invalid]
  rfl

theorem write_executed (authority : authorized index token s = true)
    (valid : validCommand outside data = true) :
    write outside index request token data s
      = reply outside index .write request
        (if (outside.command s.asked data).failed then controlInvalid else controlOk)
        (if hasLease index token (afterCommand outside index token data s) then
          { (afterCommand outside index token data s).next with
            idleUntil := outside.now (afterCommand outside index token data s).asked + leaseIdle }
        else afterCommand outside index token data s) := by
  unfold authorized at authority
  unfold write
  rw [authority, valid]
  rfl

end Write

/-! ### What leaves the deadlines alone -/

/-- The same deadlines, and nobody new holds the lease. -/
structure Lasting (hard idle : ℚ) (owner : Option Slot) (s : Server) : Prop where
  hard : s.hardUntil = hard
  idle : s.idleUntil = idle
  owner : s.owner = none ∨ s.owner = owner

section Lasting

variable {s : Server} {hard idle : ℚ} {owner : Option Slot}

theorem closeClient_deadlines (index : Slot) (s : Server) :
    (closeClient index s).hardUntil = s.hardUntil ∧ (closeClient index s).idleUntil = s.idleUntil := by
  unfold closeClient
  cases (s.clients index).fd <;> exact ⟨rfl, rfl⟩

theorem talks_lasting (hard idle : ℚ) (owner : Option Slot) : Talks (Lasting hard idle owner) where
  asks _ held := ⟨held.hard, held.idle, held.owner⟩
  took _ _ _ _ _ held _ _ := ⟨held.hard, held.idle, held.owner⟩
  close s index held _ _ := by
    obtain ⟨same, same'⟩ := closeClient_deadlines index s
    exact ⟨same.trans held.hard, same'.trans held.idle, by rw [closeClient_owner]; exact held.owner⟩
  lose s index held _ _ := by
    obtain ⟨same, same'⟩ := closeClient_deadlines index s
    exact ⟨same.trans held.hard, same'.trans held.idle, Or.inl rfl⟩
  event _ _ held _ _ := ⟨held.hard, held.idle, held.owner⟩
  told _ _ _ held _ _ := ⟨held.hard, held.idle, held.owner⟩
  counts _ held := ⟨held.hard, held.idle, held.owner⟩
  moves _ _ _ held _ := ⟨held.hard, held.idle, held.owner⟩
  ends _ held := ⟨held.hard, held.idle, Or.inl rfl⟩

theorem grants_lasting (hard idle : ℚ) (owner : Option Slot) : Grants (Lasting hard idle owner) :=
  fun _ _ _ held _ => ⟨held.hard, held.idle, held.owner⟩

theorem serves_lasting (outside : Outside) (hard idle : ℚ) (owner : Option Slot) :
    Serves outside (Lasting hard idle owner) where
  toStable := (talks_lasting hard idle owner).toStable
  opens _ _ held := ⟨held.hard, held.idle, held.owner⟩
  closes _ held := ⟨held.hard, held.idle, held.owner⟩
  window _ _ _ held _ _ _ := ⟨held.hard, held.idle, held.owner⟩
  handled _ _ delivery _ _ held := (talks_lasting hard idle owner).broadcast_keeps delivery.1 delivery.2 held

theorem requestRefresh_lasting {index : Slot} (request : UInt32) (token : UInt64)
    (lasting : Lasting hard idle owner s) :
    Lasting hard idle owner (requestRefresh outside index request token s) := by
  have talks := talks_lasting hard idle owner
  exact requestRefresh_keeps talks (fun _ => (grants_lasting hard idle owner).replied talks _ lasting)
    (fun _ held => (serves_lasting outside hard idle owner).refresh_keeps held) lasting

theorem lasting_self (s : Server) : Lasting s.hardUntil s.idleUntil s.owner s :=
  ⟨rfl, rfl, Or.inr rfl⟩

/-- A lease that survives the tick is within its bounds. -/
theorem tick_owner (sound : Sound s) {i : Slot} (held : (controlTick outside s).owner = some i) :
    s.owner = some i ∧ outside.now s.asked < s.hardUntil ∧ outside.now s.asked < s.idleUntil := by
  unfold controlTick at held
  have expired : (expireLease outside (outside.now s.asked) s.next).owner = none
      ∨ ∃ o, s.owner = some o ∧ outside.now s.asked < s.hardUntil ∧ outside.now s.asked < s.idleUntil
        ∧ expireLease outside (outside.now s.asked) s.next = s.next := by
    unfold expireLease
    cases owned : s.next.owner with
    | none => exact Or.inl owned
    | some o =>
        dsimp only
        by_cases late : outside.now s.asked ≥ s.next.idleUntil ∨ outside.now s.asked ≥ s.next.hardUntil
        · rw [if_pos late]
          refine Or.inl ?_
          have connected : (s.next.clients o).fd ≠ none := sound.owner o owned
          obtain ⟨n, fd⟩ := Option.ne_none_iff_exists'.mp connected
          unfold disconnect
          rw [fd]
          dsimp only
          rw [if_pos owned]
          exact releaseOwner_keeps stable_unowned rfl
        · rw [if_neg late]
          obtain ⟨idle, hard⟩ := not_or.mp late
          exact Or.inr ⟨o, owned, not_le.mp hard, not_le.mp idle, rfl⟩
  have later := (serves_lasting outside _ _ _).ticks.tickClients_keeps (outside.now s.asked)
    (List.finRange 16) ((serves_lasting outside _ _ _).ticks.closeWindow_keeps (outside.now s.asked)
      (lasting_self (expireLease outside (outside.now s.asked) s.next)))
  have before : (expireLease outside (outside.now s.asked) s.next).owner = some i := by
    rcases later.owner with none | same
    · rw [none] at held
      cases held
    · rw [← same]
      exact held
  rcases expired with none | ⟨o, owned, hard, idle, same⟩
  · rw [none] at before
    cases before
  · rw [same] at before
    exact ⟨before, hard, idle⟩

end Lasting

/-! ### The deadlines are those of the lease -/

/-- The deadlines of a lease are counted from its moments. -/
def Timed (s : Server) (life : Lifetime) : Prop :=
  s.owner ≠ none → s.hardUntil = life.begun + leaseTotal ∧ s.idleUntil = life.active + leaseIdle

section Timed

variable {s : Server} {life : Lifetime} {index : Slot}

theorem Timed.lasting {t : Server} (timed : Timed s life)
    (lasting : Lasting s.hardUntil s.idleUntil s.owner t) : Timed t life := by
  intro owned
  rw [lasting.hard, lasting.idle]
  exact timed fun none => owned (lasting.owner.elim id fun same => same.trans none)

/-- A lease that has just got its deadlines, and whatever is said after that. -/
theorem timed_lasting {hard idle : ℚ} {owner : Option Slot} {t : Server}
    (lasting : Lasting hard idle owner t) (hard' : hard = life.begun + leaseTotal)
    (idle' : idle = life.active + leaseIdle) : Timed t life := by
  intro _
  rw [lasting.hard, lasting.idle]
  exact ⟨hard', idle'⟩

theorem timed_begin (timed : Timed s life) (request : UInt32) :
    Timed (beginLease outside index request s)
      ((if (s.clients index).role = controlDesk ∧ s.owner = none then
        some ⟨outside.now s.asked, outside.now (s.asked + 1)⟩ else none).getD life) := by
  unfold beginLease
  by_cases role : (s.clients index).role = controlDesk
  swap
  · rw [if_pos role, if_neg fun both => role both.1]
    exact timed.lasting ((talks_lasting _ _ _).reply_keeps _ _ _ _ (lasting_self s))
  rw [if_neg (not_not.mpr role)]
  by_cases free : s.owner = none
  swap
  · rw [if_pos free, if_neg fun both => free both.2]
    exact timed.lasting ((talks_lasting _ _ _).reply_keeps _ _ _ _ (lasting_self s))
  rw [if_neg (not_not.mpr free), if_pos ⟨role, free⟩]
  have talks := talks_lasting (outside.now s.asked + leaseTotal) (outside.now (s.asked + 1) + leaseIdle)
    (some index)
  refine timed_lasting (stateChanged_keeps talks.toStable disconnect_drops
    (disconnect_keeps talks.toStable) (talks.reply_keeps _ _ _ _ ?_)) rfl rfl
  exact ⟨rfl, rfl, Or.inr rfl⟩

theorem timed_keepalive (timed : Timed s life) (request : UInt32) (token : UInt64) :
    Timed (keepalive outside index request token s)
      ((if hasLease index token s then
        some { life with active := outside.now s.asked } else none).getD life) := by
  unfold keepalive
  by_cases lease : hasLease index token s = true
  swap
  · rw [if_neg lease, if_neg lease]
    exact timed.lasting ((talks_lasting _ _ _).reply_keeps _ _ _ _ (lasting_self s))
  rw [if_pos lease, if_pos lease]
  have owned : s.owner = some index := (of_decide_eq_true lease).1
  refine timed_lasting ((talks_lasting s.hardUntil (outside.now s.asked + leaseIdle) s.owner).reply_keeps
    _ _ _ _ ?_) (timed (by simp [owned])).1 rfl
  exact ⟨rfl, rfl, Or.inr rfl⟩

/-- The command of a WRITE sets no deadline, and gives nobody the lease. -/
theorem afterCommand_lasting (token : UInt64) (data : List UInt8) (s : Server) :
    Lasting s.hardUntil s.idleUntil s.owner (afterCommand outside index token data s) := by
  unfold afterCommand
  refine (talks_lasting _ _ _).deliver_keeps _ ?_
  exact ⟨rfl, rfl, Or.inr rfl⟩

theorem timed_write (timed : Timed s life) (request : UInt32) (token : UInt64) (data : List UInt8) :
    Timed (write outside index request token data s)
      ((if authorized index token s ∧ validCommand outside data
          ∧ hasLease index token (afterCommand outside index token data s) then
        some { life with active := outside.now (afterCommand outside index token data s).asked }
        else none).getD life) := by
  have refused (code : UInt32) : Timed (reply outside index .write request code s) life :=
    timed.lasting ((talks_lasting _ _ _).reply_keeps _ _ _ _ (lasting_self s))
  by_cases authority : authorized index token s = true
  swap
  · rw [if_neg fun all => authority all.1, write_denied (by simpa using authority)]
    exact refused _
  by_cases valid : validCommand outside data = true
  swap
  · rw [if_neg fun all => valid all.2.1, write_invalid authority (by simpa using valid)]
    exact refused _
  rw [write_executed authority valid]
  have later := @afterCommand_lasting outside index token data s
  generalize afterCommand outside index token data s = commanded at later ⊢
  generalize (if (outside.command s.asked data).failed then controlInvalid else controlOk) = code
  by_cases lease : hasLease index token commanded = true
  swap
  · rw [if_neg lease, if_neg fun all => lease all.2.2]
    exact timed.lasting ((talks_lasting _ _ _).reply_keeps _ _ _ _ later)
  rw [if_pos lease, if_pos ⟨authority, valid, lease⟩]
  have owned : commanded.owner = some index := (of_decide_eq_true lease).1
  have still : s.owner ≠ none := by
    rcases later.owner with none | same
    · rw [owned] at none
      cases none
    · rw [← same, owned]
      exact Option.some_ne_none index
  refine timed_lasting ((talks_lasting commanded.hardUntil (outside.now commanded.asked + leaseIdle)
    commanded.owner).reply_keeps _ _ _ _ ⟨rfl, rfl, Or.inr rfl⟩) ?_ rfl
  exact later.hard.trans (timed still).1

theorem timed_serve (timed : Timed s life) (frame : Frame) :
    Timed (serve outside index frame s) ((renewed outside index frame s life).getD life) := by
  have talks := talks_lasting s.hardUntil s.idleUntil s.owner
  unfold serve renewed
  cases frame.kind with
  | none => exact timed.lasting (talks.disconnect_keeps index (lasting_self s))
  | some request =>
      cases request with
      | hello => exact timed.lasting (talks.disconnect_keeps index (lasting_self s))
      | begin => exact timed_begin timed _
      | «end» => exact timed.lasting (talks.endLease_keeps _ _ (lasting_self s))
      | keepalive => exact timed_keepalive timed _ _
      | write => exact timed_write timed _ _ _
      | refresh =>
          exact timed.lasting (requestRefresh_lasting _ _ (lasting_self s))

/-- A new connection neither has the lease nor changes its deadlines. -/
theorem acceptClient_lasting {hard idle : ℚ} {owner : Option Slot} (s : Server)
    (lasting : Lasting hard idle owner s) : Lasting hard idle owner (acceptClient outside s) := by
  unfold acceptClient
  split_ifs
  · exact ⟨lasting.hard, lasting.idle, lasting.owner⟩
  · cases (List.finRange 16).find? fun i => decide ((s.clients i).fd = none) with
    | none => exact ⟨lasting.hard, lasting.idle, lasting.owner⟩
    | some index => exact ⟨lasting.hard, lasting.idle, lasting.owner⟩

/-- What is no served request leaves the deadlines alone. -/
theorem act_lasting {action : Action} (idle : ∀ index frame, ¬ Serving outside s action index frame) :
    Lasting s.hardUntil s.idleUntil s.owner (act outside s action) :=
  act_keeps (talks_lasting _ _ _) (fun _ _ _ held _ => (talks_lasting _ _ _).hello_keeps
      (fun _ _ _ _ held _ => ⟨held.hard, held.idle, held.owner⟩) _ _ _ held)
    (fun _ => acceptClient_lasting s (lasting_self s)) (lasting_self s)
    ((serves_lasting outside _ _ _).controlTick_keeps (lasting_self s)) idle

theorem after_served {action : Action} {frame : Frame} (serving : Serving outside s action index frame) :
    life.after outside s action
      = (renewed outside index frame (atService outside index frame s) life).getD life := by
  rw [serving.action]
  exact if_pos ⟨serving.fd, serving.served⟩

theorem after_idle {action : Action} (idle : ∀ index frame, ¬ Serving outside s action index frame) :
    life.after outside s action = life := by
  unfold Lifetime.after
  split
  · exact if_neg fun served => idle _ _ ⟨rfl, served.1, served.2⟩
  · rfl

/-- A request is served with the deadlines the action found. -/
theorem atService_lasting (frame : Frame) :
    Lasting s.hardUntil s.idleUntil s.owner (atService outside index frame s) := by
  obtain ⟨hard, idle, owner⟩ := (serves_lasting outside _ _ _).controlTick_keeps (lasting_self s)
  exact ⟨hard, idle, owner⟩

theorem timed_act (timed : Timed s life) (action : Action) :
    Timed (act outside s action) (life.after outside s action) := by
  by_cases idle : ∀ index frame, ¬ Serving outside s action index frame
  · rw [after_idle idle]
    exact timed.lasting (act_lasting idle)
  · obtain ⟨index, frame, serving⟩ : ∃ index frame, Serving outside s action index frame := by
      simpa using idle
    rw [after_served serving, act_served serving]
    exact timed_serve (timed.lasting (atService_lasting frame)) frame

theorem timed_run (actions : List Action) (timed : Timed s life) :
    Timed (run outside actions s) (Lifetime.run outside actions s life) := by
  induction actions generalizing s life with
  | nil => exact timed
  | cons action rest ih => exact ih (timed_act timed action)

/-- A WRITE of anyone but the owner, and one that is malformed, leaves the deadlines alone. -/
theorem write_refused {hard idle : ℚ} {owner : Option Slot} (lasting : Lasting hard idle owner s)
    (request : UInt32) {token : UInt64} {data : List UInt8}
    (refused : ¬ (hasLease index token s = true ∧ validCommand outside data = true)) :
    Lasting hard idle owner (write outside index request token data s) := by
  have talks := talks_lasting hard idle owner
  by_cases authority : authorized index token s = true
  swap
  · rw [write_denied (by simpa using authority)]
    exact talks.reply_keeps _ _ _ _ lasting
  by_cases valid : validCommand outside data = true
  swap
  · rw [write_invalid authority (by simpa using valid)]
    exact talks.reply_keeps _ _ _ _ lasting
  have free : s.owner = none := by
    have gui := authority
    unfold authorized at gui
    rw [Bool.or_eq_true] at gui
    exact (of_decide_eq_true (gui.resolve_left fun lease => refused ⟨lease, valid⟩)).2.1
  have later := @afterCommand_lasting outside index token data s
  have unowned : (afterCommand outside index token data s).owner = none := by
    rcases later.owner with none | same
    · exact none
    · exact same.trans free
  have lost : ¬ hasLease index token (afterCommand outside index token data s) = true := by
    simp [hasLease, unowned]
  rw [write_executed authority valid, if_neg lost]
  refine talks.reply_keeps _ _ _ _ ⟨later.hard.trans lasting.hard, later.idle.trans lasting.idle, ?_⟩
  exact Or.inl unowned

theorem serve_refused {hard idle : ℚ} {owner : Option Slot} {frame : Frame}
    (lasting : Lasting hard idle owner s) (refused : ¬ Accepted outside index frame s) :
    Lasting hard idle owner (serve outside index frame s) := by
  have talks := talks_lasting hard idle owner
  unfold Accepted at refused
  unfold serve
  cases kind : frame.kind with
  | none => exact talks.disconnect_keeps index lasting
  | some request =>
      rw [kind] at refused
      cases request with
      | hello => exact talks.disconnect_keeps index lasting
      | begin =>
          dsimp only at refused ⊢
          unfold beginLease
          by_cases role : (s.clients index).role = controlDesk
          · rw [if_neg (not_not.mpr role), if_pos fun free => refused ⟨role, free⟩]
            exact talks.reply_keeps _ _ _ _ lasting
          · rw [if_pos role]
            exact talks.reply_keeps _ _ _ _ lasting
      | «end» => exact talks.endLease_keeps _ _ lasting
      | keepalive =>
          dsimp only at refused ⊢
          unfold keepalive
          rw [if_neg refused]
          exact talks.reply_keeps _ _ _ _ lasting
      | write => exact write_refused lasting _ refused
      | refresh => exact requestRefresh_lasting _ _ lasting

/-- A request that is not accepted leaves the deadlines to the lease that stands. -/
theorem act_refused {action : Action} (refused : ¬ Accepts outside s action) :
    Lasting s.hardUntil s.idleUntil s.owner (act outside s action) := by
  by_cases idle : ∀ index frame, ¬ Serving outside s action index frame
  · exact act_lasting idle
  obtain ⟨index, frame, serving⟩ : ∃ index frame, Serving outside s action index frame := by
    simpa using idle
  rw [act_served serving]
  exact serve_refused (atService_lasting frame) fun accepted => refused ⟨index, frame, serving, accepted⟩

end Timed

/-! ### What is executed -/

/-- These commands were executed. -/
def Recorded (executed : List Execution) (s : Server) : Prop :=
  s.executed = executed

section Recorded

variable {s : Server} {index : Slot}

theorem closeClient_executed (index : Slot) (s : Server) :
    (closeClient index s).executed = s.executed :=
  (closeClient_rest index s).2.2.2.1

theorem handles_recorded (executed : List Execution) : Handles (Recorded executed) where
  asks _ held := held
  took _ _ _ _ _ held _ _ := held
  close s index held _ _ := (closeClient_executed index s).trans held
  lose s index held _ _ := (closeClient_executed index s).trans held
  event _ _ held _ _ := held
  told _ _ _ held _ _ := held
  counts _ held := held
  moves _ _ _ held _ := held
  ends _ held := held
  begins _ _ held _ _ := held

theorem serves_recorded (outside : Outside) (executed : List Execution) :
    Serves outside (Recorded executed) where
  toStable := (handles_recorded executed).toStable
  opens _ _ held := held
  closes _ held := held
  window _ _ _ held _ _ _ := held
  handled _ _ delivery _ _ held := (handles_recorded executed).broadcast_keeps delivery.1 delivery.2 held

theorem acceptClient_recorded {executed : List Execution} (s : Server) (recorded : Recorded executed s) :
    Recorded executed (acceptClient outside s) := by
  unfold acceptClient
  split_ifs
  · exact recorded
  · cases (List.finRange 16).find? fun i => decide ((s.clients i).fd = none) <;> exact recorded

/-- A request executes one command of the owner of the moment, or none. -/
theorem serve_executed (frame : Frame) (fd : (s.clients index).fd ≠ none) :
    ∃ added, (serve outside index frame s).executed = s.executed ++ added
      ∧ ∀ execution ∈ added, execution.owner = s.owner := by
  have handles := handles_recorded s.executed
  have none' {t : Server} (same : Recorded s.executed t) :
      ∃ added, t.executed = s.executed ++ added ∧ ∀ execution ∈ added, execution.owner = s.owner :=
    ⟨[], by rw [List.append_nil]; exact same, fun _ member => absurd member List.not_mem_nil⟩
  by_cases kind : frame.kind = some .write
  swap
  · exact none' (serve_keeps handles (fun _ _ _ held => held) (fun write => absurd write kind)
      (fun _ => requestRefresh_keeps handles.toTalks
        (fun _ => Grants.replied (fun _ _ _ held _ => held) handles.toTalks _ rfl)
        (fun _ held => (serves_recorded outside _).refresh_keeps held) rfl) rfl fd)
  have write : serve outside index frame s
      = write outside index frame.request frame.token frame.data s := by
    unfold serve
    rw [kind]
  rw [write]
  by_cases authority : authorized index frame.token s = true
  swap
  · rw [write_denied (by simpa using authority)]
    exact none' (handles.reply_keeps _ _ _ _ rfl)
  by_cases valid : validCommand outside frame.data = true
  swap
  · rw [write_invalid authority (by simpa using valid)]
    exact none' (handles.reply_keeps _ _ _ _ rfl)
  rw [write_executed authority valid]
  have executed := handles_recorded (execute index frame.token frame.data s).executed
  have commanded : Recorded (execute index frame.token frame.data s).executed
      (afterCommand outside index frame.token frame.data s) := executed.deliver_keeps _ rfl
  refine ⟨[⟨index, (s.clients index).role, frame.token, s.owner, s.generation, s.changes, frame.data⟩],
    ?_, by simp⟩
  show Recorded (execute index frame.token frame.data s).executed _
  refine executed.reply_keeps _ _ _ _ ?_
  split_ifs
  · exact commanded
  · exact commanded

/-- What an action executes, it executes for the owner whom the tick that opens it left. -/
theorem act_executed (action : Action) :
    ∃ added, (act outside s action).executed = s.executed ++ added
      ∧ ∀ execution ∈ added, execution.owner = (controlTick outside s).owner := by
  have ticked : Recorded s.executed (controlTick outside s) :=
    (serves_recorded outside _).controlTick_keeps rfl
  by_cases idle : ∀ index frame, ¬ Serving outside s action index frame
  · have same : Recorded s.executed (act outside s action) :=
      act_keeps (handles_recorded _).toTalks (fun _ _ _ held _ =>
        (handles_recorded _).hello_keeps (fun _ _ _ _ held _ => held) _ _ _ held)
        (fun _ => acceptClient_recorded s rfl) rfl ticked idle
    exact ⟨[], by rw [List.append_nil]; exact same, fun _ member => absurd member List.not_mem_nil⟩
  · obtain ⟨index, frame, serving⟩ : ∃ index frame, Serving outside s action index frame := by
      simpa using idle
    obtain ⟨added, same, owner⟩ := @serve_executed outside _ index frame (counted_fd serving.served)
    rw [act_served serving]
    refine ⟨added, same.trans ?_, owner⟩
    rw [← ticked]
    rfl

end Recorded

/-- A lease cannot outlive its bounds: what is executed for an owner is executed within 90 s of the BEGIN
and 5 s of the last sign of life, by the clock of the tick before it; and no other request moves a deadline
or gives a lease to anyone. -/
theorem leaseBounds (outside : Outside) (actions : List Action) (action : Action) :
    (∃ added, (act outside (run outside actions {}) action).executed
        = (run outside actions {}).executed ++ added
      ∧ ∀ execution ∈ added, execution.owner ≠ none →
        outside.now (run outside actions {}).asked
            < (Lifetime.run outside actions {} {}).begun + leaseTotal
          ∧ outside.now (run outside actions {}).asked
            < (Lifetime.run outside actions {} {}).active + leaseIdle)
    ∧ (¬ Accepts outside (run outside actions {}) action →
      (act outside (run outside actions {}) action).hardUntil = (run outside actions {}).hardUntil
        ∧ (act outside (run outside actions {}) action).idleUntil = (run outside actions {}).idleUntil
        ∧ ((act outside (run outside actions {}) action).owner = none
          ∨ (act outside (run outside actions {}) action).owner = (run outside actions {}).owner)) := by
  have sound : Sound (run outside actions {}) := (follows_run ⟨sound_start, Grew.refl _⟩ actions).1
  have timed : Timed (run outside actions {}) (Lifetime.run outside actions {} {}) :=
    timed_run actions fun owned => absurd rfl owned
  refine ⟨?_, fun refused => ?_⟩
  · obtain ⟨added, same, owner⟩ := @act_executed outside (run outside actions {}) action
    refine ⟨added, same, fun execution member owned => ?_⟩
    obtain ⟨index, held⟩ := Option.ne_none_iff_exists'.mp ((owner execution member) ▸ owned)
    obtain ⟨before, hard, idle⟩ := tick_owner sound held
    obtain ⟨hard', idle'⟩ := timed (by simp [before])
    rw [hard'] at hard
    rw [idle'] at idle
    exact ⟨hard, idle⟩
  · obtain ⟨hard, idle, owner⟩ := act_refused refused
    exact ⟨hard, idle, owner⟩

end OscmixDesk.Backend
