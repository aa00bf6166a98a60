/-
**What a signal reaches.**

The desk that a reload signals is pinned, looked up again and seen to catch SIGHUP, and then signalled
(`reload_finds`), as the backend of a cleanup is pinned, checked again and terminated. What is read in between
under the number is read of the process that is reached (`signalsReach`).
-/

import OscmixDesk.Model.HostService
import OscmixDesk.Proof.Signals

namespace OscmixDesk.Process

open Checks Effects Observed Text

/-! ### The registered desk -/

/-- What is read of a process that matches the registration. -/
structure Matches (service : HostService) (pid : ℕ) (first last : Moment Snapshot) : Prop where
  user : Seen first last (Shown (pidText pid) (·.uid = service.uid))
  command : Seen first last (Shown (pidText pid) fun p => service.commands (closedArgs p.cmdline) = true)
  environment : Seen first last (Shown (pidText pid) fun p => ∃ environ, p.environ = some environ
    ∧ service.surrounds environ = true)

theorem Matches.widen {service : HostService} {pid : ℕ} {start first last stop : Moment Snapshot}
    (matched : Matches service pid first last) (before : Later start first) (after : Later last stop) :
    Matches service pid start stop :=
  ⟨matched.user.widen before after, matched.command.widen before after, matched.environment.widen before after⟩

theorem matchesService_finds (service : HostService) (pid : ℕ) : Finds (matchesService service pid)
    fun matched first last => matched = true → Matches service pid first last := by
  refine ((attempt_entry Proc.uid).bind fun uid => Finds.ite (fun _ => finds_pure _) fun _ =>
    (attempt_entry Proc.cmdline).bind fun cmdline => Finds.ite (fun _ => finds_pure _) fun _ =>
      (ofEntry_finds _).attempt.bind fun environ => finds_pure _).imp ?_
  rintro matched first last - ⟨uid, second, a, b, user, rest⟩ yes
  rcases rest with ⟨-, rfl, -⟩ | ⟨owned, cmdline, third, c, d, command, rest⟩
  · cases yes
  rcases rest with ⟨-, rfl, -⟩ | ⟨commands, environ, fourth, e, f, environment, rfl, rfl⟩
  · cases yes
  refine ⟨(user.widen (Later.refl _) b).imp fun w known => ?_, (command.widen a d).imp fun w known => ?_, ?_⟩
  · exact Option.map_eq_some_iff.mp (known.trans (not_not.mp owned))
  · obtain ⟨text, rfl, fits⟩ := (Option.any_eq_true _ _).mp (by simpa using commands)
    obtain ⟨p, entry, rfl⟩ := Option.map_eq_some_iff.mp known
    exact ⟨p, entry, fits⟩
  · obtain ⟨text, rfl, fits⟩ := (Option.any_eq_true _ _).mp yes
    exact ((environment text rfl).widen (a.trans c) (Later.refl _)).imp fun w ⟨p, entry, read⟩ =>
      ⟨p, entry, text, elim_ok read, fits⟩

theorem reads_rootFile (file : Host → Option RootFile) : Reads (rootFile file) :=
  (finds_look _).reads.bind fun _ => Reads.ite (finds_throw _ _) ((finds_look _).reads.bind fun _ =>
    Reads.ite (finds_throw _ _) (finds_look _).reads)

theorem reads_unlessMissing {α : Type} {prog : Look α} (reads : Reads prog) : Reads (unlessMissing prog) :=
  Finds.recover (reads.map some).reads (fun _ => Reads.ite (finds_pure _).reads (finds_throw _ _))
    fun _ _ _ _ _ _ => trivial

theorem reads_openrcSupervisor : Reads openrcSupervisor :=
  (reads_rootFile _).bind fun _ => Reads.ite (finds_throw _ _) ((finds_lift _).reads.bind fun _ =>
    Reads.ite (finds_throw _ _) (finds_pure _).reads)

theorem reads_openrcChildren (service : HostService) (supervisor : List Char) :
    Reads (openrcChildren service supervisor) :=
  (ofEntry_finds _).reads.bind fun _ => (ofEntry_finds _).reads.bind fun _ => Reads.ite (finds_throw _ _)
    ((ofEntry_finds _).reads.bind fun _ => (finds_lift _).reads)

theorem reads_runitParent (shown : List Char) : Reads (runitParent shown) := by
  refine (ofEntry_finds _).reads.bind fun status => ?_
  split
  · exact finds_throw _ _
  · refine (ofEntry_finds _).reads.bind fun cmdline => (finds_look _).reads.bind fun target =>
      (ofEntry_finds _).reads.bind fun uid => ?_
    split
    · exact Reads.ite (finds_throw _ _) (finds_pure _).reads
    · exact finds_throw _ _

theorem reads_mainPid (uid : ℕ) (service : HostService) : Reads (mainPid uid service) := by
  unfold mainPid
  refine Reads.ite (finds_pure _).reads ?_
  split
  · refine (reads_unlessMissing reads_openrcSupervisor).bind fun supervisor => ?_
    split
    · exact (finds_pure _).reads
    · refine (reads_unlessMissing (reads_openrcChildren _ _)).bind fun candidates => ?_
      split
      · exact (finds_pure _).reads
      · exact (Finds.mapM fun pid _ => matchesService_finds service pid).reads.bind fun matched =>
          Reads.ite (finds_throw _ _) (finds_pure _).reads
  · refine (finds_look _).reads.bind fun _ => Reads.ite (finds_pure _).reads
      ((reads_unlessMissing (reads_rootFile _)).bind fun text => ?_)
    split
    · exact (finds_pure _).reads
    · refine Reads.ite (finds_pure _).reads (Reads.ite (finds_throw _ _) ((finds_lift _).reads.bind fun number =>
        Reads.ite (finds_throw _ _) ((matchesService_finds service number).reads.bind fun _ =>
          Reads.ite (finds_pure _).reads ?_)))
      exact (reads_unlessMissing (reads_runitParent _)).bind fun _ => (finds_pure _).reads

/-! ### The signal of a reload -/

/-- The process catches SIGHUP. -/
def CatchesHangup (process : Proc) : Prop :=
  ∃ caught, caughtSignals process.status = some caught ∧ caught &&& 1 ≠ 0

/-- What the checks behind the opening of a pidfd read of the desk's main process. -/
structure Ready (uid : ℕ) (service : HostService) (pid : ℕ) (first last : Moment Snapshot) : Prop where
  main : ∃ start stop, Later first start ∧ Later stop last ∧ mainPid uid service start = (.ok (some pid), stop)
  matched : Matches service pid first last
  caught : Seen first last (Shown (pidText pid) CatchesHangup)

theorem Ready.widen {uid : ℕ} {service : HostService} {pid : ℕ} {start first last stop : Moment Snapshot}
    (ready : Ready uid service pid first last) (before : Later start first) (after : Later last stop) :
    Ready uid service pid start stop := by
  obtain ⟨looks, looked, up, down, run⟩ := ready.main
  exact ⟨⟨looks, looked, before.trans up, down.trans after, run⟩, ready.matched.widen before after,
    ready.caught.widen before after⟩

theorem awaitHandler_finds (uid : ℕ) (service : HostService) (pid : ℕ) (deadline : ℚ) (turns : ℕ) :
    Finds (awaitHandler uid service pid deadline turns) fun ready first last =>
      ready = true → Ready uid service pid first last := by
  induction turns with
  | zero =>
      exact (finds_pure _).imp fun _ _ _ _ ⟨same, _⟩ yes => by
        rw [same] at yes
        cases yes
  | succ turns ih =>
      unfold awaitHandler
      refine ((reads_mainPid uid service).run.bind fun main => Finds.ite (fun _ => finds_pure _) fun _ =>
        (matchesService_finds service pid).bind fun matched => Finds.ite (fun _ => finds_pure _) fun _ =>
          Finds.andThen (fun status ready first last => ready = true →
            (∃ caught, caughtSignals status = some caught ∧ caught &&& 1 ≠ 0) ∨ Ready uid service pid first last)
            (ofEntry_finds _) fun status => ?_).imp ?_
      · cases known : caughtSignals status with
        | none =>
            exact (finds_pure _).imp fun _ _ _ _ ⟨same, _⟩ yes => by
              rw [same] at yes
              cases yes
        | some caught =>
            refine (Finds.ite (fun _ => finds_pure _) fun _ => (finds_look _).bind fun now =>
              Finds.ite (fun _ => finds_pure _) fun _ => ih).imp ?_
            rintro ready first last - (⟨bit, -⟩ | ⟨-, now, second, a, -, -, rest⟩) yes
            · exact Or.inl ⟨caught, rfl, bit⟩
            · rcases rest with ⟨-, rfl, -⟩ | ⟨-, again⟩
              · cases yes
              · exact Or.inr ((again yes).widen a (Later.refl _))
      · rintro ready first last - ⟨main, second, a, b, run, rest⟩ yes
        rcases rest with ⟨-, rfl, -⟩ | ⟨same, matched, third, c, d, fits, rest⟩
        · cases yes
        rcases rest with ⟨-, rfl, -⟩ | ⟨found, status, fourth, e, f, shown, judged⟩
        · cases yes
        rcases judged yes with catches | again
        · obtain rfl := not_not.mp same
          refine ⟨⟨first, second, Later.refl _, b, run⟩, (fits (by simpa using found)).widen a d,
            (shown.widen (a.trans c) f).imp fun w ⟨p, entry, read⟩ => ⟨p, entry, ?_⟩⟩
          obtain rfl := Except.ok.inj read
          exact catches
        · exact again.widen ((a.trans c).trans e) (Later.refl _)

/-- What the signal of a reload comes with. -/
def Reloaded (uid : ℕ) (service : HostService) (first : Moment Snapshot) (delivery : Delivery) : Prop :=
  ∃ pid, Sent pid (Ready uid service pid) first.world delivery

theorem signalPinned_finds (uid turns : ℕ) (service : HostService) (pid : ℕ) :
    Finds (signalPinned uid turns service pid) fun result first _ => ∀ delivery, result.2 = some delivery →
      Sent pid (Ready uid service pid) first.world delivery := by
  unfold signalPinned
  refine (finds_moment.bind fun opened => Finds.andThen (fun fd (result : Reload × Option Delivery) first _ =>
    Sends fd opened (Ready uid service pid) result.2 first) (pidfdOpen_finds pid) fun fd => ?_).imp ?_
  · cases fd with
    | gone => exact finds_unsent _ _
    | refused => exact finds_unsent _ _
    | process born =>
        refine ((finds_look _).bind fun now => (awaitHandler_finds uid service pid _ turns).bind fun ready =>
          Finds.ite (fun _ => finds_pure _) fun _ => Finds.andThen
            (fun result (value : Reload × Option Delivery) _ _ =>
              ∀ delivery, value.2 = some delivery → result = .reached delivery)
            (pidfdSendSignal_finds opened born) fun result => ?_).imp ?_
        · cases result with
          | gone => exact finds_unsent _ _
          | refused => exact finds_unsent _ _
          | reached delivery => exact finds_sent _ _
        · rintro value first last - ⟨now, second, a, -, -, ready, checked, b, -, holds, rest⟩ delivery known
          rcases rest with ⟨-, rfl, -⟩ | ⟨yes, result, after, -, -, reached, same⟩
          · cases known
          · obtain ⟨rfl, lives⟩ := reached delivery (same delivery known)
            exact ⟨born, checked, rfl, a.trans b, (holds (by simpa using yes)).widen a (Later.refl _), rfl, lives⟩
  · rintro value first last - ⟨opened, same, -, -, ⟨rfl, rfl⟩, fd, ticked, -, -, ⟨opens, process⟩, sends⟩
    intro delivery known
    obtain ⟨born, checked, rfl, later, holds, delivered, lives⟩ := sends delivery known
    exact sent_of opens (process born rfl) (Later.refl _) later holds delivered lives

theorem Reloaded.before {uid : ℕ} {service : HostService} {delivery : Delivery} {start first : Moment Snapshot}
    (reloaded : Reloaded uid service first delivery) (later : Later start first) :
    Reloaded uid service start delivery := by
  unfold Reloaded
  rw [← later.world]
  exact reloaded

theorem reload_finds (uid turns : ℕ) (service : HostService) : Finds (reload uid turns service)
    fun result first _ => ∀ delivery, result.2 = some delivery → Reloaded uid service first delivery := by
  unfold reload
  refine (Finds.andThen (fun _ result first _ => ∀ delivery, result.2 = some delivery →
    Reloaded uid service first delivery) (reads_mainPid uid service).run fun main => ?_).imp ?_
  · cases main with
    | none => exact finds_unsent _ _
    | some pid =>
        refine Finds.recover ((signalPinned_finds uid turns service pid).imp
          fun value first last _ sent delivery known => ⟨pid, sent delivery known⟩) (fun problem => ?_)
          fun value first middle last later reloaded delivery known => (reloaded delivery known).before later
        split_ifs
        · exact finds_throw _ _
        · exact finds_unsent _ _
  · rintro value first last - ⟨main, middle, a, -, -, sent⟩ delivery known
    exact (sent delivery known).before a

/-! ### What is read of the process -/

section

variable (world : ℕ → Snapshot) (delivery : Delivery)

/-- At the moment it was so of the process that the signal reached. -/
def ReadAt (fact : Proc → Prop) (t : ℕ) : Prop :=
  ∃ p ∈ (world t).processes, p.born = delivery.process ∧ fact p

/-- It was so at a read between the opening of the pidfd and the signal. -/
def ReadBetween (fact : ℕ → Prop) : Prop :=
  ∃ t, delivery.opened < t ∧ t < delivery.sent ∧ fact t

/-- The signal reached the process that its pidfd was opened on, under the number. -/
structure Pinned (pid : ℕ) : Prop where
  opened : ∃ p, (world delivery.opened).entry (pidText pid) = some p ∧ p.born = delivery.process
  reached : ReadAt world delivery (fun p => p.number = pid) delivery.sent
  before : delivery.opened < delivery.sent

/-- What a cleanup has read of the process that it terminates: it is this user's orphaned backend of the
endpoint and the device. -/
structure Orphan (uid pid : ℕ) (path : List Char) (device : Discovery.Device) : Prop where
  socket : ∃ inode, ReadBetween delivery (fun t => ∃ inodes, listeningInodes path (world t).unix = .ok inodes
      ∧ inode ∈ inodes)
    ∧ ReadBetween delivery (ReadAt world delivery (·.Links (.socket inode)))
  command : ReadBetween delivery (ReadAt world delivery fun p => runsEndpoint path (argsOf p.cmdline) = true)
  executable : ReadBetween delivery (ReadAt world delivery fun p => ∃ executable, p.exe = some executable
    ∧ pathName executable = oscmix)
  user : ReadBetween delivery (ReadAt world delivery (·.uid = uid))
  bridge : ∃ client candidate, device.client = some client
    ∧ (ReadBetween delivery (fun t => Shown candidate (HasParent (pidText pid)) (world t))
      ∨ ReadBetween delivery (ReadAt world delivery (HasParent candidate)))
    ∧ ReadBetween delivery (fun t => Shown candidate (fun p =>
      bridgedBy (splitNul p.cmdline) = some client) (world t))
    ∧ ReadBetween delivery (fun t => Shown candidate (fun p => ∃ executable, p.exe = some executable
      ∧ pathName executable = alsaseqio) (world t))
    ∧ ReadBetween delivery (fun t => ShowsSerial client device.serial (world t))
  unsupervised : ∃ parent, ReadBetween delivery fun t => ReadAt world delivery (HasParent parent) t
    ∧ (parent = ['1'] ∨ ReadBetween delivery fun u => t < u
      ∧ ∀ p, (world u).entry parent = some p → runsSession p.cmdline = false)

/-- What a reload has read of the process that it signals: it is the registered service's main process, and it
catches SIGHUP. -/
structure Main (uid pid : ℕ) (service : HostService) : Prop where
  main : ∃ start stop, delivery.opened < start ∧ start ≤ stop ∧ stop ≤ delivery.sent
    ∧ mainPid uid service ⟨world, start⟩ = (.ok (some pid), ⟨world, stop⟩)
  user : ReadBetween delivery (ReadAt world delivery (·.uid = service.uid))
  command : ReadBetween delivery (ReadAt world delivery fun p => service.commands (closedArgs p.cmdline) = true)
  environment : ReadBetween delivery (ReadAt world delivery fun p => ∃ environ, p.environ = some environ
    ∧ service.surrounds environ = true)
  caught : ReadBetween delivery (ReadAt world delivery CatchesHangup)

end

variable {world : ℕ → Snapshot} {delivery : Delivery} {pid start stop : ℕ}

/-- A read of the checks is one between the opening and the signal. -/
theorem read_between {fact : Snapshot → Prop} (opened : delivery.opened < start) (sent : stop ≤ delivery.sent)
    (seen : Seen ⟨world, start⟩ ⟨world, stop⟩ fact) : ReadBetween delivery fun t => fact (world t) := by
  obtain ⟨t, low, high, holds⟩ := seen
  exact ⟨t, Nat.lt_of_lt_of_le opened low, Nat.lt_of_lt_of_le high sent, holds⟩

/-- What is read under the number is read of the process, as long as it lives. -/
theorem Pinned.readAt (evolves : Evolves world) (pinned : Pinned world delivery pid) {fact : Proc → Prop} {t : ℕ}
    (opened : delivery.opened < t) (sent : t < delivery.sent) (shown : Shown (pidText pid) fact (world t)) :
    ReadAt world delivery fact t := by
  obtain ⟨p, entry, born⟩ := pinned.opened
  obtain ⟨r, lives, reached, -⟩ := pinned.reached
  obtain ⟨q, entry', holds⟩ := shown
  have same := evolves.pinned entry opened.le sent.le lives (reached.trans born.symm) entry'
  exact ⟨q, (Snapshot.entry_mem entry').1, same.trans born, holds⟩

theorem Pinned.read (evolves : Evolves world) (pinned : Pinned world delivery pid) {fact : Proc → Prop}
    (opened : delivery.opened < start) (sent : stop ≤ delivery.sent)
    (seen : Seen ⟨world, start⟩ ⟨world, stop⟩ (Shown (pidText pid) fact)) :
    ReadBetween delivery (ReadAt world delivery fact) := by
  obtain ⟨t, low, high, shown⟩ := read_between opened sent seen
  exact ⟨t, low, high, pinned.readAt evolves low high shown⟩

theorem Sent.pinned (evolves : Evolves world) {found : Moment Snapshot → Moment Snapshot → Prop}
    (sent : Sent pid found world delivery) : Pinned world delivery pid := by
  obtain ⟨p, entry, born⟩ := sent.opens
  obtain ⟨r, lives, reached⟩ := sent.reaches
  obtain ⟨start, stop, opened, later, before, -⟩ := sent.checked
  obtain ⟨listed, name⟩ := Snapshot.entry_mem entry
  refine ⟨⟨p, entry, born⟩, ⟨r, lives, reached, ?_⟩, opened.trans_le (later.trans before)⟩
  exact (evolves.number _ _ p listed r lives (born.trans reached.symm)).symm.trans (pidText_injective name)

/-- What the checks of a cleanup read is read of the process. -/
theorem Rechecked.orphan (evolves : Evolves world) (pinned : Pinned world delivery pid) {uid : ℕ} {path : List Char}
    {device : Discovery.Device} (rechecked : Rechecked uid pid path device ⟨world, start⟩ ⟨world, stop⟩)
    (opened : delivery.opened < start) (sent : stop ≤ delivery.sent) :
    Orphan world delivery uid pid path device where
  socket := by
    obtain ⟨inode, listed, links⟩ := rechecked.socket
    exact ⟨inode, read_between opened sent listed, pinned.read evolves opened sent links⟩
  command := pinned.read evolves opened sent rechecked.command
  executable := pinned.read evolves opened sent rechecked.executable
  user := pinned.read evolves opened sent rechecked.user
  bridge := by
    obtain ⟨client, known, ⟨candidate, near, command, executable⟩, shows⟩ := rechecked.bridge
    exact ⟨client, candidate, known, near.imp (read_between opened sent) (pinned.read evolves opened sent),
      read_between opened sent command, read_between opened sent executable, read_between opened sent shows⟩
  unsupervised := by
    rcases rechecked.unsupervised with gone | ⟨parent, middle, up, down, read, none'⟩
    · -- The process lives until the signal, so its entry was there.
      obtain ⟨t, low, high, none'⟩ := read_between opened sent gone
      obtain ⟨p, entry, born⟩ := pinned.opened
      obtain ⟨r, lives, reached, -⟩ := pinned.reached
      obtain ⟨q, there, -⟩ := evolves.there entry low.le high.le lives (reached.trans born.symm)
      cases none'.symm.trans there
    · obtain ⟨t, low, high, shown⟩ := read
      have low' := opened.trans_le low
      have high' := high.trans_le (down.now.trans sent)
      refine ⟨parent, t, low', high', pinned.readAt evolves low' high' shown, none'.imp id fun seen => ?_⟩
      obtain ⟨u, after, before, unlike⟩ := seen
      refine ⟨u, low'.trans (high.trans_le after), before.trans_le sent, high.trans_le after, ?_⟩
      rw [up.world] at unlike
      exact unlike

/-- What the checks of a reload read is read of the process. -/
theorem Ready.main_of (evolves : Evolves world) (pinned : Pinned world delivery pid) {uid : ℕ}
    {service : HostService} (ready : Ready uid service pid ⟨world, start⟩ ⟨world, stop⟩)
    (opened : delivery.opened < start) (sent : stop ≤ delivery.sent) : Main world delivery uid pid service where
  main := by
    obtain ⟨⟨_, looks⟩, ⟨_, looked⟩, up, down, run⟩ := ready.main
    obtain rfl := up.world
    obtain rfl := down.world
    exact ⟨looks, looked, opened.trans_le up.now, ((reads_mainPid uid service).run.returned run).1.now,
      down.now.trans sent, run⟩
  user := pinned.read evolves opened sent ready.matched.user
  command := pinned.read evolves opened sent ready.matched.command
  environment := pinned.read evolves opened sent ready.matched.environment
  caught := pinned.read evolves opened sent ready.caught

/-- A signal reaches only the process that its pidfd was opened on, and only where what identifies it was read
of that process in between: an orphaned backend's where a cleanup terminates, the registered service's main
process and its handler where a reload signals. -/
theorem signalsReach (evolves : Evolves world) (first : ℕ) :
    (∀ uid path device result last,
      cleanupStaleBackend uid path device ⟨world, first⟩ = (.ok (result, some delivery), last) →
      ∃ pid, Pinned world delivery pid ∧ Orphan world delivery uid pid path device)
    ∧ ∀ uid turns service result last,
      reload uid turns service ⟨world, first⟩ = (.ok (result, some delivery), last) →
      ∃ pid, Pinned world delivery pid ∧ Main world delivery uid pid service := by
  constructor
  · intro uid path device result last run
    obtain ⟨pid, sent⟩ := ((cleanupStaleBackend_finds uid path device).returned run).2 delivery rfl
    have pinned := sent.pinned evolves
    obtain ⟨start, stop, opened, -, before, rechecked⟩ := sent.checked
    exact ⟨pid, pinned, rechecked.orphan evolves pinned opened before⟩
  · intro uid turns service result last run
    obtain ⟨pid, sent⟩ := ((reload_finds uid turns service).returned run).2 delivery rfl
    have pinned := sent.pinned evolves
    obtain ⟨start, stop, opened, -, before, ready⟩ := sent.checked
    exact ⟨pid, pinned, ready.main_of evolves pinned opened before⟩

/-- The words, each closed by NUL. -/
def closeArgs (args : List (List Char)) : List Char :=
  args.flatMap (· ++ [Char.ofNat 0])

/-- A process of the number that it was born with. -/
def procOf (number uid parent : ℕ) (exe : List Char) (args : List (List Char)) : Proc where
  number := number
  born := number
  uid := uid
  comm := exe
  cmdline := closeArgs args
  exe := some exe
  parent := parent
  state := 'S'
  counters := []
  environ := none
  status := []
  children := []
  handles := none
  letter := by decide
  closed := by decide

/-- An orphaned backend 7 of `/c`, with the bridge 8 of client 20, and runit's desk 9 under its `runsv`. -/
def deskProcesses : List Proc :=
  [{ procOf 7 5 1 oscmix [oscmix, ['-', 'c'], ['/', 'c']] with handles := some [(3, some (.socket ['4']))] },
    procOf 8 5 7 alsaseqio [alsaseqio, ['-', 'x'], ['2', '0', ':', '1'], oscmix],
    { procOf 9 5 6 [] [['/', 'd'], ['-', '-', 'c', 'o', 'n', 'f', 'i', 'g'], ['/', 'f']] with
      environ := some (closeArgs [managerVariable ++ Manager.runit.name, ['H', 'O', 'M', 'E', '=', '/']])
      status := ['P', 'P', 'i', 'd', ':', ' ', '6', '\n', 'S', 'i', 'g', 'C', 'g', 't', ':', ' ', '1'] },
    procOf 6 0 1 [] [['r', 'u', 'n', 's', 'v'], oscmixDesk]]

def deskSnapshot : Snapshot where
  processes := deskProcesses
  unix := some (header ++ '\n' :: ['0', ' ', '2', ' ', '0', ' ', '0', '0', '0', '1', '0', '0', '0', '0', ' ',
    '0', '0', '0', '5', ' ', '0', '1', ' ', '4', ' ', '/', 'c'])
  clients := some ['C', 'l', 'i', 'e', 'n', 't', ' ', '2', '0', ' ', ':', ' ', '"', 'U', ' ', '(', '1', '2',
    '3', '4', ')', '"']
  endpoint := .socket
  host := ⟨none, true, some ⟨true, 0, 0, [], ['9']⟩, []⟩
  clock := 0
  pidfds := true

theorem deskSnapshot_evolves : Evolves fun _ => deskSnapshot where
  distinct _ := by decide
  number _ _ := by decide
  lasts _ _ _ _ _ p listed _ _ _ := ⟨p, listed, rfl⟩

/-- Both signals reach their process. -/
theorem signalsReach_desk :
    (∃ pid, Pinned (fun _ => deskSnapshot) ⟨7, 32, 64⟩ pid
      ∧ Orphan (fun _ => deskSnapshot) ⟨7, 32, 64⟩ 5 pid ['/', 'c'] ⟨[], ['1', '2', '3', '4'], some 20⟩)
    ∧ ∃ pid, Pinned (fun _ => deskSnapshot) ⟨9, 11, 28⟩ pid
      ∧ Main (fun _ => deskSnapshot) ⟨9, 11, 28⟩ 5 pid ⟨.runit, [], 5, ['/'], ['/', 'f'], ['/', 'd']⟩ := by
  constructor
  · refine (signalsReach deskSnapshot_evolves 0).1 5 ['/', 'c'] ⟨[], ['1', '2', '3', '4'], some 20⟩ none _
      (Prod.ext ?_ rfl)
    decide +kernel
  · refine (signalsReach deskSnapshot_evolves 0).2 5 1 ⟨.runit, [], 5, ['/'], ['/', 'f'], ['/', 'd']⟩ .reloaded _
      (Prod.ext ?_ rfl)
    decide +kernel

end OscmixDesk.Process
