/-
**What a client makes of its packets.**

The view of a `Control` after more packets is a fold that stops at the first one it does not take
(`follow`). Each kind of packet is taken under a condition of its own (`receive_leaseEvent`,
`receive_window`, `receive_observation`), and a client that asks or gives its lease up reads on as it would
have (`follow_asking`).
-/

import OscmixDesk.Foundation.Checks
import OscmixDesk.Model.Control

namespace OscmixDesk.Backend

open Checks

variable {outside : Outside}

/-! ### Numbers of four bytes -/

/-- A byte shifted in is a digit more. -/
theorem shift_byte (n : UInt32) (byte : UInt8) (small : n.toNat < 2 ^ 24) :
    (n <<< 8 ||| byte.toUInt32).toNat = n.toNat * 256 + byte.toNat := by
  have low : byte.toNat < 2 ^ 8 := byte.toNat_lt
  rw [UInt32.toNat_or, UInt32.toNat_shiftLeft, UInt8.toNat_toUInt32]
  show n.toNat <<< 8 % 2 ^ 32 ||| byte.toNat = _
  rw [Nat.shiftLeft_eq, Nat.mod_eq_of_lt (by omega), ← Nat.shiftLeft_eq,
    ← Nat.shiftLeft_add_eq_or_of_lt low, Nat.shiftLeft_eq]

/-- The next byte of a number, shifted in behind the ones above it. -/
theorem shift_next (n high : UInt32) {k : ℕ} (byte : UInt8)
    (above : high.toNat = n.toNat / 2 ^ (k + 8)) (next : byte.toNat = n.toNat / 2 ^ k % 256) :
    (high <<< 8 ||| byte.toUInt32).toNat = n.toNat / 2 ^ k := by
  have whole : n.toNat < 2 ^ 32 := n.toNat_lt
  have split : n.toNat / 2 ^ (k + 8) = n.toNat / 2 ^ k / 256 := by
    rw [Nat.pow_add, Nat.div_div_eq_div_mul]
  have small : high.toNat < 2 ^ 24 := by
    rw [above]
    refine Nat.div_lt_of_lt_mul (whole.trans_le ?_)
    rw [← Nat.pow_add]
    exact Nat.pow_le_pow_right (by omega) (by omega)
  rw [shift_byte high byte small, above, next, split]
  omega

theorem get32_put32 (n : UInt32) : get32 (put32 n) = n := by
  have byte (k : UInt32) : (n >>> k).toUInt8.toNat = n.toNat / 2 ^ (k.toNat % 32) % 256 := by
    rw [UInt32.toNat_toUInt8, UInt32.toNat_shiftRight, Nat.shiftRight_eq_div_pow]
  apply UInt32.toNat_inj.mp
  unfold get32 put32
  simp only [List.foldl_cons, List.foldl_nil]
  have first : ((0 : UInt32) <<< 8 ||| (n >>> 24).toUInt8.toUInt32).toNat = n.toNat / 2 ^ 24 := by
    have whole : n.toNat < 2 ^ 32 := n.toNat_lt
    rw [shift_byte _ _ (by simp), byte]
    show 0 * 256 + n.toNat / 2 ^ 24 % 256 = _
    omega
  have second := shift_next n _ (n >>> 16).toUInt8 first (byte 16)
  have third := shift_next n _ (n >>> 8).toUInt8 second (byte 8)
  have last := shift_next n _ n.toUInt8 third (by simp)
  simpa using last

/-! ### What a view takes -/

namespace View

variable {v w : View} {packet : Packet}

/-- A view after more packets. -/
def follow (outside : Outside) (packets : List Packet) (v : View) : Except ProtocolProblem View :=
  packets.foldlM (fun v packet => v.receive outside packet) v

@[simp] theorem follow_nil : follow outside [] v = .ok v := rfl

theorem follow_cons {packets : List Packet} : follow outside (packet :: packets) v = .ok w
    ↔ ∃ middle, v.receive outside packet = .ok middle ∧ follow outside packets middle = .ok w := by
  unfold follow
  rw [List.foldlM_cons, bind_eq_ok]

theorem follow_append {first second : List Packet} : follow outside (first ++ second) v = .ok w
    ↔ ∃ middle, follow outside first v = .ok middle ∧ follow outside second middle = .ok w := by
  unfold follow
  rw [List.foldlM_append, bind_eq_ok]

theorem follow_singleton : follow outside [packet] v = .ok w ↔ v.receive outside packet = .ok w := by
  rw [follow_cons]
  simp

/-- A packet that is no reply is an event, whoever waits. -/
theorem receive_event (plain : ∀ kind, packet.kind ≠ .reply kind)
    (fits : packet.payload.length ≤ controlPayload) :
    v.receive outside packet = v.event packet := by
  unfold receive
  rw [if_neg (not_lt.mpr fits)]
  cases kind : packet.kind with
  | reply request => exact absurd kind (plain request)
  | event => rfl
  | observation => rfl
  | window => rfl

theorem receive_reply {kind : Request} {call : Call} (reply : packet.kind = .reply kind)
    (pending : v.pending = some call) (fits : packet.payload.length ≤ controlPayload) :
    v.receive outside packet = v.acknowledge outside call kind packet := by
  unfold receive
  rw [if_neg (not_lt.mpr fits), reply, pending]

/-- A lease event is taken by who holds no lease, and by who holds the one it announces. -/
theorem receive_leaseEvent {code : UInt32} {sequence : UInt64}
    (known : code = controlOk ∨ code = controlBusy) (later : v.generation ≤ sequence)
    (lease : ∀ t, v.lease = some t → t = sequence ∧ code = controlBusy) :
    v.receive outside ⟨.event, 0, code, sequence, .none⟩
      = .ok { v with generation := sequence, leaseHeld := code = controlBusy } := by
  rw [receive_event (by simp) (Nat.zero_le _)]
  unfold event
  have ordered : ¬ ((Payload.none).length ≠ 0 ∨ (code ≠ controlOk ∧ code ≠ controlBusy)
      ∨ sequence < v.generation) := by
    rintro (long | unknown | early)
    · exact long rfl
    · exact known.elim unknown.1 unknown.2
    · exact absurd early (UInt64.not_lt.mpr later)
  have same : ¬ (v.lease ≠ none ∧ (v.lease ≠ some sequence ∨ code ≠ controlBusy)) := by
    rintro ⟨held, changed⟩
    obtain ⟨t, lease'⟩ := Option.ne_none_iff_exists'.mp held
    obtain ⟨rfl, busy⟩ := lease t lease'
    exact changed.elim (fun other => other lease') fun free => free busy
  rw [if_neg (by simp)]
  dsimp only
  rw [if_neg ordered, if_neg same]

theorem receive_window {code : UInt32} {sequence : UInt64}
    (known : code = controlOk ∨ code = controlBusy) :
    v.receive outside ⟨.window, 0, code, sequence, .none⟩ = .ok v := by
  rw [receive_event (by simp) (Nat.zero_le _)]
  unfold event
  rw [if_neg (by simp)]
  dsimp only
  rw [if_neg]
  rintro (long | unknown)
  · exact long rfl
  · exact known.elim unknown.1 unknown.2

/-- A client that has subscribed takes the next delivery. -/
theorem receive_observation {source : Source} {sequence : UInt64} {data : List UInt8}
    (subscribed : v.sources &&& source.bit ≠ 0) (filled : data ≠ []) (aligned : data.length % 4 = 0)
    (fits : data.length ≤ controlPayload) (later : v.lastSequence < sequence) (greeted : v.epoch ≠ []) :
    v.receive outside ⟨.observation, 0, source.bit, sequence, .osc data⟩
      = .ok { v with lastSequence := sequence } := by
  rw [@receive_event outside v ⟨.observation, 0, source.bit, sequence, .osc data⟩ (by simp) fits]
  unfold event
  rw [if_neg (by simp)]
  dsimp only
  rw [if_neg]
  rintro (unknown | other | short | odd | early | stranger)
  · cases source <;> simp [Source.bit] at unknown
  · rw [UInt32.and_comm] at other
    exact subscribed other
  · exact filled (List.length_eq_zero_iff.mp short)
  · exact odd aligned
  · exact absurd later (UInt64.not_lt.mpr early)
  · exact greeted stranger

/-- What an event leaves alone. -/
theorem event_kept (taken : v.event packet = .ok w) :
    w = { v with
      generation := w.generation, leaseHeld := w.leaseHeld, lastSequence := w.lastSequence }
      ∧ ∀ kind, packet.kind ≠ .reply kind := by
  unfold event at taken
  by_cases reply : packet.request ≠ 0
  · rw [if_pos reply] at taken
    cases taken
  rw [if_neg reply] at taken
  cases kind : packet.kind with
  | reply request =>
      rw [kind] at taken
      cases taken
  | event =>
      rw [kind] at taken
      dsimp only at taken
      split_ifs at taken
      cases taken
      exact ⟨rfl, by simp⟩
  | observation =>
      rw [kind] at taken
      dsimp only at taken
      split_ifs at taken
      cases taken
      exact ⟨rfl, by simp⟩
  | window =>
      rw [kind] at taken
      dsimp only at taken
      split_ifs at taken
      cases taken
      exact ⟨rfl, by simp⟩

/-- An event that a waiting or a releasing client takes no other way. -/
theorem event_commutes {call : Option Call} {number : UInt32} {lease : Option UInt64}
    (released : lease = v.lease ∨ lease = none) (taken : v.event packet = .ok w) :
    ({ v with pending := call, requestId := number, lease := lease } : View).event packet
      = .ok { w with pending := call, requestId := number, lease := lease } := by
  unfold event at taken ⊢
  by_cases reply : packet.request ≠ 0
  · rw [if_pos reply] at taken
    cases taken
  rw [if_neg reply] at taken ⊢
  cases kind : packet.kind with
  | reply request =>
      rw [kind] at taken
      cases taken
  | event =>
      rw [kind] at taken
      dsimp only at taken ⊢
      split_ifs at taken with invalid changed
      cases taken
      rw [if_neg invalid, if_neg]
      rintro ⟨held, other⟩
      rcases released with rfl | rfl
      · exact changed ⟨held, other⟩
      · exact held rfl
  | observation =>
      rw [kind] at taken
      dsimp only at taken ⊢
      split_ifs at taken with invalid
      cases taken
      rw [if_neg invalid]
  | window =>
      rw [kind] at taken
      dsimp only at taken ⊢
      split_ifs at taken with invalid
      cases taken
      rw [if_neg invalid]

/-- A packet that is taken is no longer than the protocol allows. -/
theorem receive_fits (taken : v.receive outside packet = .ok w) :
    packet.payload.length ≤ controlPayload := by
  by_contra long
  unfold receive at taken
  rw [if_pos (not_le.mp long)] at taken
  cases taken

/-- A client that waits for nothing takes only events. -/
theorem receive_unasked (idle : v.pending = none) (taken : v.receive outside packet = .ok w) :
    v.event packet = .ok w := by
  have fits := receive_fits taken
  unfold receive at taken
  rw [if_neg (not_lt.mpr fits), idle] at taken
  cases kind : packet.kind <;> rw [kind] at taken <;> exact taken

/-- A client that asks, or gives its lease up, reads on as before. -/
theorem follow_asking {packets : List Packet} {call : Call} {number : UInt32} {lease : Option UInt64}
    (idle : v.pending = none) (released : lease = v.lease ∨ lease = none)
    (taken : follow outside packets v = .ok w) : w.pending = none ∧ w.lease = v.lease
      ∧ w.requestId = v.requestId ∧ w.sources = v.sources ∧ follow outside packets
        { v with pending := some call, requestId := number, lease := lease }
        = .ok { w with pending := some call, requestId := number, lease := lease } := by
  induction packets generalizing v with
  | nil =>
      cases taken
      exact ⟨idle, rfl, rfl, rfl, rfl⟩
  | cons packet rest ih =>
      obtain ⟨middle, first, later⟩ := follow_cons.mp taken
      have fits := receive_fits first
      have event := receive_unasked idle first
      obtain ⟨kept, plain⟩ := event_kept event
      have kept' : middle.pending = none ∧ middle.lease = v.lease ∧ middle.requestId = v.requestId
          ∧ middle.sources = v.sources := by
        rw [kept]
        exact ⟨idle, rfl, rfl, rfl⟩
      obtain ⟨idle', lease', number', sources', commuted⟩ :=
        ih kept'.1 (released.imp (fun same => same.trans kept'.2.1.symm) id) later
      refine ⟨idle', lease'.trans kept'.2.1, number'.trans kept'.2.2.1, sources'.trans kept'.2.2.2,
        follow_cons.mpr ⟨_, ?_, commuted⟩⟩
      rw [receive_event plain fits]
      exact event_commutes released event

/-- A reply ends the wait, and only the one to BEGIN brings a lease. -/
theorem answered_kept {call : Call} (taken : v.answered outside packet call = .ok w) :
    w.pending = v.pending ∧ (call ≠ .begin → w.lease = v.lease) := by
  cases call with
  | hello =>
      unfold answered handshake at taken
      cases payload : packet.payload with
      | none =>
          rw [payload] at taken
          cases taken
      | osc data =>
          rw [payload] at taken
          cases taken
      | hello reply =>
          rw [payload] at taken
          dsimp only at taken
          split_ifs at taken
          cases taken
          exact ⟨rfl, fun _ => rfl⟩
  | begin =>
      unfold answered at taken
      dsimp only at taken
      split_ifs at taken <;> cases taken <;> exact ⟨rfl, fun other => absurd rfl other⟩
  | finish token =>
      unfold answered at taken
      dsimp only at taken
      split_ifs at taken
      cases taken
      exact ⟨rfl, fun _ => rfl⟩
  | heartbeat =>
      unfold answered at taken
      dsimp only at taken
      split_ifs at taken
      cases taken
      exact ⟨rfl, fun _ => rfl⟩
  | write =>
      unfold answered at taken
      dsimp only at taken
      split_ifs at taken
      cases taken
      exact ⟨rfl, fun _ => rfl⟩
  | requestDump =>
      cases taken
      exact ⟨rfl, fun _ => rfl⟩

/-- A client asks for a lease only where it has none, and keeps the one it has. -/
theorem receive_held (begins : v.pending = some .begin → v.lease = none)
    (taken : v.receive outside packet = .ok w) :
    (w.pending = some .begin → w.lease = none) ∧ ∀ t, v.lease = some t → w.lease = some t := by
  have event (taken : v.event packet = .ok w) :
      (w.pending = some .begin → w.lease = none) ∧ ∀ t, v.lease = some t → w.lease = some t := by
    obtain ⟨same, -⟩ := event_kept taken
    rw [same]
    exact ⟨begins, fun _ lease => lease⟩
  unfold receive at taken
  split_ifs at taken
  cases kind : packet.kind with
  | event =>
      rw [kind] at taken
      exact event taken
  | observation =>
      rw [kind] at taken
      exact event taken
  | window =>
      rw [kind] at taken
      exact event taken
  | reply request =>
      cases pending : v.pending with
      | none =>
          rw [kind, pending] at taken
          exact event taken
      | some call =>
          rw [kind, pending] at taken
          unfold acknowledge at taken
          dsimp only at taken
          split_ifs at taken
          obtain ⟨idle, kept⟩ := answered_kept taken
          refine ⟨fun asks => ?_, fun t lease => (kept ?_).trans lease⟩
          · rw [idle] at asks
            cases asks
          · rintro rfl
            rw [begins pending] at lease
            cases lease

theorem follow_held {packets : List Packet} {t : UInt64} (begins : v.pending = some .begin → v.lease = none)
    (lease : v.lease = some t) (taken : follow outside packets v = .ok w) : w.lease = some t := by
  induction packets generalizing v with
  | nil =>
      cases taken
      exact lease
  | cons packet rest ih =>
      obtain ⟨middle, first, later⟩ := follow_cons.mp taken
      obtain ⟨begins', kept⟩ := receive_held begins first
      exact ih begins' (kept t lease) later

/-- The token a client holds, or gives up with the END it sent. -/
def claim (v : View) : Option UInt64 :=
  match v.pending with
  | some (.finish token) => some token
  | _ => v.lease

end View

end OscmixDesk.Backend
