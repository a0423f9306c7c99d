/-
  Packets on a link never collide.

  `Shared ends l t ends'` is a run of the two ends of a link: from `ends`, both
  on the link, any operations on either in any order have led to `ends'`, again
  on the link, and have sent the packets `l`.  Both ends find the same link time
  whenever they are ticked, which never goes back; it is `t` at last.

  A tick sends one packet at most, which lies in its sender's half of a period
  that this end has not sent in (`transmissions_cases`).  `Clear` says so of a
  whole run, and the rest is about halves: of two packets in different halves
  one is over before the other begins (`Role.InHalf.end_le_start`).
-/
import Mathlib.Logic.Function.Basic
import AirLink.Proofs.Link.Delivery
import AirLink.Proofs.Link.Linked

namespace AirLink

/-- A packet on air, on the timeline of the link. -/
structure OnAir where
  role : Role
  /-- when its sender decided to send it -/
  start : Nat
  /-- the time from then until it is over -/
  airtime : Nat
deriving DecidableEq

/-- A packet lies in its sender's half of the period that it starts in. -/
structure OnAir.Fits (period : Nat) (p : OnAir) : Prop where
  inHalf : p.role.InHalf period (p.start / period) p.start
  ends : p.start + p.airtime ≤ p.role.halfStart period (p.start / period) + period / 2

namespace Endpoint

/-- The packets sent by an operation at the link time `t`, which leads to `e'`. -/
def transmissions (e : Endpoint) (r : Role) (t : Nat) (e' : Endpoint) : List OnAir :=
  (e'.station.outbox.drop e.station.outbox.length).filterMap fun
    | .send _ packet => some ⟨r, t, e.station.airtime packet.length⟩
    | _ => none

end Endpoint

/-- A run of the two ends of a link, with the packets sent and the link time. -/
inductive Shared (ends₀ : Role → Endpoint) :
    (l : List OnAir) → (t : Nat) → (ends : Role → Endpoint) → Prop
  | start (t : Nat) (h : ∀ r, (ends₀ r).stage = .linked) : Shared ends₀ [] t ends₀
  | step {l t ends t'} (h : Shared ends₀ l t ends) (r : Role) (op : Op) {e : Endpoint}
      (ht : t ≤ t') (hm : ∀ m, op = .tick m → (ends r).TicksAt m t')
      (hp : (ends r).perform op = .ok e) (hl : e.stage = .linked) :
      Shared ends₀ (l ++ (ends r).transmissions r t' e) t' (Function.update ends r e)

/-! ## One operation -/

variable {c : Settings} {r : Role} {e e' : Endpoint} {t : Nat}

theorem Station.Planned.fits_half {s : Station} {size now period : Nat} {x : Transmission}
    (h : s.Planned size now x) (hp : 2 ≤ period) (hs : s.stage = .linked)
    (hd : s.linkedDuplex = .ofRole r period) (ht : s.linkMicros now = t) :
    OnAir.Fits period ⟨r, t, s.airtime size⟩ ∧ s.lastSlot ≠ some ((t / period : Nat) : Int) ∧
      x.slot = (t / period : Nat) := by
  have hunused := h.unused
  have hfits := h.fits
  have hslot := h.slot_eq
  simp only [duplex, duplexTime, if_pos hs, hd, ht] at hunused hfits hslot
  obtain ⟨hin, hends, hnumber⟩ := Duplex.half_of_canSend hp (ht ▸ s.linkMicros_lt now) hfits
  rw [hnumber] at hunused hslot
  exact ⟨⟨hin, hends⟩, hunused, hslot⟩

namespace Endpoint

theorem transmissions_eq_nil {k : List Effect} (hk : e'.station.outbox = e.station.outbox ++ k)
    (hsends : ∀ x ∈ k, x.isSend = false) : e.transmissions r t e' = [] := by
  rw [transmissions, hk, List.drop_left, List.filterMap_eq_nil_iff]
  intro x hx
  cases x with
  | send => cases hsends _ hx
  | _ => rfl

theorem transmissions_eq_singleton {k : List Effect} {packet : Bytes} (channel : UInt8)
    (hk : e'.station.outbox = e.station.outbox ++ k ++ [.send channel packet])
    (hsends : ∀ x ∈ k, x.isSend = false) :
    e.transmissions r t e' = [⟨r, t, e.station.airtime packet.length⟩] := by
  have hnil : e.transmissions r t
      { e with station := { e.station with outbox := e.station.outbox ++ k } } = [] :=
    transmissions_eq_nil rfl hsends
  rw [transmissions, List.drop_left] at hnil
  rw [transmissions, hk, List.append_assoc, List.drop_left, List.filterMap_append, hnil]
  rfl

/-- An operation on an end of a link sends nothing, or one packet that fits, in
    a period that this end has not sent in. -/
theorem transmissions_cases {op : Op} (hc : 2 ≤ c.duplexMicros) (hj : Joined c r e)
    (hs : e.stage = .linked) (hs' : e'.stage = .linked) (hp : e.perform op = .ok e')
    (hm : ∀ m, op = .tick m → e.TicksAt m t) :
    (e.transmissions r t e' = [] ∧ e'.station.lastSlot = e.station.lastSlot) ∨
    ∃ p, e.transmissions r t e' = [p] ∧ p.role = r ∧ p.start = t ∧ p.Fits c.duplexMicros ∧
      e.station.lastSlot ≠ some ((t / c.duplexMicros : Nat) : Int) ∧
      e'.station.lastSlot = some ((t / c.duplexMicros : Nat) : Int) := by
  by_cases hop : ∀ m, op ≠ .tick m
  · have hsteady := perform_steady hop hp
    obtain ⟨k, hk, hsends⟩ := hsteady.outbox
    exact .inl ⟨transmissions_eq_nil hk hsends, hsteady.lastSlot⟩
  obtain ⟨m, rfl⟩ : ∃ m, op = .tick m := by simpa using hop
  obtain ⟨s, hf, hmicros⟩ := hm m rfl
  obtain ⟨d, ht⟩ := perform_tick hp
  obtain ⟨size, v, htried, haired⟩ := tick_tried ht hf hs hs'
  have hsteady := hf.steady (e.now m)
  have hlinked := (hf.stage (e.now m)).trans hs
  have hmicros : (s.listen (e.now m)).linkMicros (e.now m) = t :=
    (Station.linkMicros_of_still (s.still_listen _)).trans hmicros
  have hairtime := hf.airtime (e.now m)
  generalize s.listen (e.now m) = u at *
  simp only [Station.aired, Prod.mk.injEq] at haired
  obtain ⟨-, -, hslot', houtbox⟩ := haired
  obtain ⟨k, hk, hsends⟩ := hsteady.outbox
  have hslot := hsteady.lastSlot
  have hd := hsteady.duplex.trans (hj.duplex hs)
  cases htried with
  | held => exact .inl ⟨transmissions_eq_nil (houtbox.trans hk) hsends, hslot'.trans hslot⟩
  | @refused x hx =>
    refine .inl ⟨transmissions_eq_nil (k := k ++ [.refused x.channel x.frame.toBytes]) ?_ ?_,
      hslot'.trans hslot⟩
    · rw [houtbox, ← List.append_assoc, ← hk]
      rfl
    · intro y hy
      rcases List.mem_append.1 hy with hy | hy
      · exact hsends y hy
      · obtain rfl := List.mem_singleton.1 hy
        rfl
  | @sent x hx =>
    obtain ⟨hfits, hunused, hnumber⟩ := hx.fits_half hc hlinked hd hmicros
    have hpacket : x.frame.toBytes.length = size := x.frame.length_toBytes.trans hx.size_eq
    refine .inr ⟨⟨r, t, e.station.airtime x.frame.toBytes.length⟩, ?_, rfl, rfl, ?_,
      hslot ▸ hunused, ?_⟩
    · refine transmissions_eq_singleton x.channel (houtbox.trans ?_) hsends
      rw [← hk]
      rfl
    · rw [hpacket, ← hairtime]
      exact hfits
    · rw [hslot', ← hnumber]
      rfl

end Endpoint

/-! ## Runs -/

/-- Of two packets one starts first, and they are in different halves. -/
def OnAir.Before (period : Nat) (p q : OnAir) : Prop :=
  p.start ≤ q.start ∧ (p.role ≠ q.role ∨ p.start / period ≠ q.start / period)

/-- What holds after the packets `l` at the link time `t`: they fit, no two of
    them are in the same half, and each end remembers the last period that it
    sent in. -/
structure Clear (c : Settings) (l : List OnAir) (t : Nat) (ends : Role → Endpoint) : Prop where
  joined : ∀ r, Joined c r (ends r)
  linked : ∀ r, (ends r).stage = .linked
  fits : ∀ p ∈ l, p.Fits c.duplexMicros
  past : ∀ p ∈ l, p.start ≤ t
  apart : l.Pairwise (OnAir.Before c.duplexMicros)
  noted : ∀ p ∈ l, ∃ k : Nat, (ends p.role).station.lastSlot = some (k : Int) ∧
    p.start / c.duplexMicros ≤ k ∧ k ≤ t / c.duplexMicros

namespace Clear

variable {l : List OnAir} {t' : Nat} {ends : Role → Endpoint}

theorem wait (h : Clear c l t ends) (ht : t ≤ t') (hj : Joined c r e) (hl : e.stage = .linked)
    (hs : e.station.lastSlot = (ends r).station.lastSlot) :
    Clear c l t' (Function.update ends r e) where
  joined := (Function.forall_update_iff ends (Joined c)).2 ⟨hj, fun r _ => h.joined r⟩
  linked := (Function.forall_update_iff ends fun _ e => e.stage = .linked).2
    ⟨hl, fun r _ => h.linked r⟩
  fits := h.fits
  past p hp := Nat.le_trans (h.past p hp) ht
  apart := h.apart
  noted p hp := by
    obtain ⟨k, hk, hle, hk'⟩ := h.noted p hp
    refine ⟨k, ?_, hle, Nat.le_trans hk' (Nat.div_le_div_right ht)⟩
    by_cases hr : p.role = r
    · subst hr
      rw [Function.update_self, hs, hk]
    · rw [Function.update_of_ne hr, hk]

theorem send {p : OnAir} (h : Clear c l t ends) (ht : t ≤ p.start) (hj : Joined c p.role e)
    (hl : e.stage = .linked) (hf : p.Fits c.duplexMicros)
    (hu : (ends p.role).station.lastSlot ≠ some ((p.start / c.duplexMicros : Nat) : Int))
    (hs : e.station.lastSlot = some ((p.start / c.duplexMicros : Nat) : Int)) :
    Clear c (l ++ [p]) p.start (Function.update ends p.role e) where
  joined := (Function.forall_update_iff ends (Joined c)).2 ⟨hj, fun r _ => h.joined r⟩
  linked := (Function.forall_update_iff ends fun _ e => e.stage = .linked).2
    ⟨hl, fun r _ => h.linked r⟩
  fits q hq := by
    rcases List.mem_append.1 hq with hq | hq
    · exact h.fits q hq
    · exact List.mem_singleton.1 hq ▸ hf
  past q hq := by
    rcases List.mem_append.1 hq with hq | hq
    · exact Nat.le_trans (h.past q hq) ht
    · exact Nat.le_of_eq (List.mem_singleton.1 hq ▸ rfl)
  apart := by
    refine List.pairwise_append.2 ⟨h.apart, List.pairwise_singleton .., fun q hq q' hq' => ?_⟩
    obtain rfl := List.mem_singleton.1 hq'
    refine ⟨Nat.le_trans (h.past q hq) ht, ?_⟩
    by_cases hr : q.role = q'.role
    · -- the sender remembers a period from that of `q` on, and not this one
      obtain ⟨k, hk, hle, hk'⟩ := h.noted q hq
      have htime := Nat.div_le_div_right (c := c.duplexMicros) ht
      refine .inr fun heq => hu ?_
      rw [← hr, hk]
      congr 2
      omega
    · exact .inl hr
  noted q hq := by
    by_cases hr : q.role = p.role
    · refine ⟨p.start / c.duplexMicros, by rw [hr, Function.update_self, hs], ?_, Nat.le_refl _⟩
      rcases List.mem_append.1 hq with hq | hq
      · exact Nat.div_le_div_right (Nat.le_trans (h.past q hq) ht)
      · exact Nat.le_of_eq (List.mem_singleton.1 hq ▸ rfl)
    · rcases List.mem_append.1 hq with hq | hq
      · obtain ⟨k, hk, hle, hk'⟩ := h.noted q hq
        refine ⟨k, ?_, hle, Nat.le_trans hk' (Nat.div_le_div_right ht)⟩
        rw [Function.update_of_ne hr, hk]
      · exact absurd (List.mem_singleton.1 hq ▸ rfl) hr

end Clear

theorem Shared.clear {l : List OnAir} {ends₀ ends : Role → Endpoint} (hc : 2 ≤ c.duplexMicros)
    (h₀ : ∀ r, Joined c r (ends₀ r)) (h : Shared ends₀ l t ends) : Clear c l t ends := by
  induction h with
  | start t hl => exact ⟨h₀, hl, nofun, nofun, .nil, nofun⟩
  | step _ r op ht hm hp hl ih =>
    have hj : Joined c r _ := (ih.joined r).perform hp
    rcases Endpoint.transmissions_cases hc (ih.joined r) (ih.linked r) hl hp hm with
      ⟨hnil, hs⟩ | ⟨p, hsingle, rfl, rfl, hf, hu, hs⟩
    · rw [hnil, List.append_nil]
      exact ih.wait ht hj hl hs
    · rw [hsingle]
      exact ih.send ht hj hl hf hu hs

/-- **Packets on a link never collide.**  Two ends of a link with valid settings,
    as runs lead to them (`Run.joined`), may be ticked at any times and whatever
    else may happen to them; as long as both find the same link time, which does
    not go back, each packet lies in its sender's half of one period, is over
    before the next packet begins, and is the only one of its sender in that
    half. -/
theorem linked_packets_never_collide (hv : c.check = .ok ()) {l : List OnAir}
    {ends₀ ends : Role → Endpoint} (h₀ : ∀ r, Joined c r (ends₀ r))
    (h : Shared ends₀ l t ends) :
    (∀ p ∈ l, ∃ k, p.role.InHalf c.duplexMicros k p.start ∧
      p.start + p.airtime ≤ p.role.halfStart c.duplexMicros k + c.duplexMicros / 2) ∧
    l.Pairwise fun p q => p.start + p.airtime ≤ q.start ∧
      (p.role = q.role → ∀ k, p.role.InHalf c.duplexMicros k p.start →
        ¬ q.role.InHalf c.duplexMicros k q.start) := by
  have hc : 2 ≤ c.duplexMicros := Nat.le_trans (by decide) (Settings.check_bounds hv).1
  have hclear := h.clear hc h₀
  refine ⟨fun p hp => ⟨_, (hclear.fits p hp).inHalf, (hclear.fits p hp).ends⟩, ?_⟩
  refine hclear.apart.imp_of_mem fun {p q} hp hq hbefore => ⟨?_, fun hr k hk hk' => ?_⟩
  · have hends := (hclear.fits p hp).ends
    have hstart := (hclear.fits p hp).inHalf.end_le_start (hclear.fits q hq).inHalf
      hbefore.1 hbefore.2
    have hin := (hclear.fits q hq).inHalf.1
    omega
  · rcases hbefore.2 with hne | hne
    · exact hne hr
    · exact hne (hk.div_eq.trans hk'.div_eq.symm)

/-- An end of a link whose application has a packet to send, and whose radio
    needs a quarter of a millisecond for it. -/
def Endpoint.talking (r : Role) : Endpoint :=
  let e := online r
  { e with station := { e.station with
      radio := ⟨fun _ => 50, fun _ => 200, true⟩
      linkedDuplex := .ofRole r e.station.settings.duplexMicros
      queue := { e.station.queue with pending := some ⟨7, [1, 2, 3], 0, 0⟩ } } }

theorem Endpoint.talking_joined (r : Role) : Joined .fast r (talking r) where
  settings := rfl
  side := by cases r <;> rfl
  duplex _ := rfl
  hop _ := ⟨zeroBlock 32, rfl⟩

/-- A tick half a millisecond into its half has either end send its packet. -/
theorem Endpoint.talking_sends (r : Role) : ∃ m e,
    (talking r).perform (.tick m) = .ok e ∧ e.stage = .linked ∧
    (talking r).TicksAt m (r.ownHalf 2000 + 500) ∧
    (talking r).transmissions r (r.ownHalf 2000 + 500) e = [⟨r, r.ownHalf 2000 + 500, 250⟩] := by
  let m : Moment := ⟨UInt32.ofNat (r.ownHalf 2000 + 500), true, true⟩
  have hrun : ((talking r).perform (.tick m)).toOption.map (fun e =>
      (e.stage, (talking r).transmissions r (r.ownHalf 2000 + 500) e)) =
      some (.linked, [⟨r, r.ownHalf 2000 + 500, 250⟩]) := by
    cases r <;> decide +kernel
  obtain ⟨e, hp, he⟩ := Option.map_eq_some_iff.1 hrun
  obtain ⟨hs, hsent⟩ := Prod.mk.inj he
  have hticks : (talking r).TicksAt m (r.ownHalf 2000 + 500) := by
    cases r <;> decide +kernel
  exact ⟨m, e, ok_of_toOption hp, hs, hticks, hsent⟩

/-- First the server sends a packet, then the client. -/
theorem linked_packets_never_collide_of_exchange :
    ∃ l t ends, Settings.fast.check = .ok () ∧ (∀ r, Joined .fast r (.talking r)) ∧
      Shared .talking l t ends ∧ l = [⟨.server, 500, 250⟩, ⟨.client, 1500, 250⟩] ∧
      (∀ p ∈ l, ∃ k, p.role.InHalf 2000 k p.start ∧
        p.start + p.airtime ≤ p.role.halfStart 2000 k + 1000) ∧
      l.Pairwise fun p q => p.start + p.airtime ≤ q.start ∧
        (p.role = q.role → ∀ k, p.role.InHalf 2000 k p.start → ¬ q.role.InHalf 2000 k q.start) := by
  obtain ⟨m, e, he, hs, hm, hsent⟩ := Endpoint.talking_sends .server
  obtain ⟨m', e', he', hs', hm', hsent'⟩ := Endpoint.talking_sends .client
  have h₀ : Shared .talking [] 0 .talking := .start 0 fun r => rfl
  have h₁ : Shared .talking [⟨.server, 500, 250⟩] 500 (Function.update .talking .server e) := by
    have h := h₀.step .server (.tick m) (Nat.zero_le 500) (fun n hn => by cases hn; exact hm) he hs
    rw [show Endpoint.transmissions _ .server 500 e = _ from hsent] at h
    exact h
  have hclient : Function.update Endpoint.talking .server e .client = .talking .client :=
    Function.update_of_ne (by decide) ..
  have h₂ : Shared .talking [⟨.server, 500, 250⟩, ⟨.client, 1500, 250⟩] 1500
      (Function.update (Function.update .talking .server e) .client e') := by
    have h := h₁.step .client (.tick m') (show 500 ≤ 1500 by decide)
      (fun n hn => by cases hn; rw [hclient]; exact hm') (hclient ▸ he') hs'
    rw [hclient, show Endpoint.transmissions _ .client 1500 e' = _ from hsent'] at h
    exact h
  have hend := linked_packets_never_collide rfl Endpoint.talking_joined h₂
  exact ⟨_, _, _, rfl, Endpoint.talking_joined, h₂, rfl, hend.1, hend.2⟩

end AirLink
