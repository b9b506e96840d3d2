import Rfircd.RoundTrip
import Rfircd.StationChat
import Rfircd.StationMemory

/-! A message of several frames while they come in, one by one and with other things between.
What has arrived of it is in the record of its sender, until it is complete. Then its number is. -/
namespace MessageArrival

open Airc AircSession Basics FragmentBuffers KeyedTable RadioSessions RoundTrip StationChat
open StationMemory

variable {src : Callsign} {seq : UInt16} {msg : FragmentBuffers.Message} {g : AircFrame}
  {got : ℕ → Prop} {b : Bool} {now start : ℕ} {s t : Sessions}

/-- Those parts of the message are there, none of them from before the start or repeated. -/
structure Collects (src : Callsign) (msg : FragmentBuffers.Message) (b : Bool) (start : ℕ)
    (got : ℕ → Prop) (s : Sessions) : Prop where
  present : (s.peer src).isSome = true
  waiting : Waiting msg b (s.record src).owedAck got (s.record src)
  young : ∀ r, (s.record src).reasm.get msg.seq = some r → start ≤ r.started
  first : ∀ r, (s.record src).reasm.get msg.seq = some r → r.flags &&& Flags.retry = 0

/-- The message was delivered. -/
structure Knows (src : Callsign) (seq : UInt16) (start : ℕ) (s : Sessions) : Prop where
  present : (s.peer src).isSome = true
  seen : seq ∈ (s.record src).seen
  young : ∀ r, (s.record src).reasm.get seq = some r → start ≤ r.started

/-- Nothing of the message is there yet. -/
theorem collects_fresh (h : Fresh s src msg.seq) (hpresent : (s.peer src).isSome = true) (b : Bool)
    (start : ℕ) : Collects src msg b start (fun _ => False) s := by
  have hnone : ∀ r, (s.record src).reasm.get msg.seq ≠ some r := by
    intro r hr
    rw [h.unbuffered] at hr
    cases hr
  refine ⟨hpresent, ⟨h.new, rfl, fun r hr => absurd hr (hnone r), fun i => ⟨False.elim, ?_⟩⟩,
    fun r hr => absurd hr (hnone r), fun r hr => absurd hr (hnone r)⟩
  rintro ⟨r, hr, -⟩
  exact hnone r hr

/-! ### Other things between the frames -/

theorem remembers_self (h : (s.peer src).isSome = true) (seq : UInt16) :
    Remembers src seq (memory seq (s.record src)) s := by
  obtain ⟨p, hp⟩ := Option.isSome_iff_exists.mp h
  rw [Remembers, hp, record_of_some hp]
  rfl

theorem memory_record {M : List UInt16 × Option Reassembly} (h : Remembers src seq M s) :
    memory seq (s.record src) = M := by
  obtain ⟨p, hp, hmemory⟩ := Option.map_eq_some_iff.mp h
  rw [record_of_some hp, hmemory]

theorem Collects.remembered (h : Collects src msg b start got s)
    (hkept : Remembers src msg.seq (memory msg.seq (s.record src)) t) :
    Collects src msg b start got t := by
  obtain ⟨hseen, hreasm⟩ := Prod.mk.inj (memory_record hkept)
  refine ⟨hkept.present, ⟨hseen ▸ h.waiting.new, rfl, ?_, ?_⟩, ?_, ?_⟩
  · rw [hreasm]
    exact h.waiting.buffer
  · rw [hreasm]
    exact h.waiting.parts
  · rw [hreasm]
    exact h.young
  · rw [hreasm]
    exact h.first

theorem Knows.remembered (h : Knows src seq start s)
    (hkept : Remembers src seq (memory seq (s.record src)) t) : Knows src seq start t := by
  obtain ⟨hseen, hreasm⟩ := Prod.mk.inj (memory_record hkept)
  refine ⟨hkept.present, hseen ▸ h.seen, ?_⟩
  rw [hreasm]
  exact h.young

/-! ### One frame -/

theorem receiveMessage_young {cfg : SessionConfig} {p : Peer} (hnow : start ≤ now)
    (hseq : g.seq = seq) (h : ∀ r, p.reasm.get seq = some r → start ≤ r.started) :
    ∀ r, (receiveMessage cfg p g now b).1.reasm.get seq = some r → start ≤ r.started := by
  subst hseq
  have hstored : start ≤ (stored cfg p g now b).started := by
    change start ≤ (bufferFor (evictReasm p g.seq cfg.maxReasm) g now (b && g.wantsAck)).started
    unfold bufferFor
    dsimp only
    split
    · exact hnow
    · rename_i r hr
      split_ifs
      · exact hnow
      · exact h r (get_evictReasm hr)
  have htaken := receiveMessage_taken cfg p g now b
  generalize (receiveMessage cfg p g now b).1 = q,
    (receiveMessage cfg p g now b).2.1 = deliver at htaken ⊢
  cases htaken with
  | again _ _ _ _ hreasm => exact hreasm ▸ h
  | single _ _ _ _ hreasm => exact hreasm ▸ h
  | refused => exact h
  | kept _ _ _ _ _ _ hreasm =>
    intro r hr
    rw [hreasm, Table.get_set_self] at hr
    exact Option.some.inj hr ▸ hstored
  | finished _ _ _ _ _ _ hreasm =>
    intro r hr
    rw [hreasm, Table.get_erase, if_pos rfl] at hr
    cases hr

/-- What a message of a station that has a record does to it. -/
theorem receive_eq (hack : g.kind ≠ .ack) (hhello : g.kind ≠ .hello)
    (hpresent : (s.peer src).isSome = true) (now : ℕ) (b : Bool) :
    ∃ p, SameInbox (s.record src) p ∧ ((s.onReceive src g now b).1.peer src).isSome = true ∧
      (s.onReceive src g now b).1.record src = (receiveMessage s.config p g now b).1 ∧
      (s.onReceive src g now b).2.deliver = (receiveMessage s.config p g now b).2.1 := by
  obtain ⟨p, ht⟩ := touched_of_room (.inl hpresent) now
  obtain ⟨hin, -, -⟩ := Sessions.touched_same ht
  have hreset : SameInbox p (helloReset p.noteAirc g) := by
    rw [helloReset, if_neg fun h => hhello h.1]
    exact ⟨rfl, rfl, rfl⟩
  have hpiggy := applyPiggyback_inbox (helloReset p.noteAirc g) g
  have hreceive : s.onReceive src g now b =
      (s.store src (p.receive s.config g now b).1, (p.receive s.config g now b).2) := by
    rw [Sessions.onReceive, ht]
  refine ⟨p.piggybacked g, ⟨?_, ?_, ?_⟩, ?_⟩
  · exact hpiggy.seen.trans (hreset.seen.trans hin.seen)
  · exact hpiggy.reasm.trans (hreset.reasm.trans hin.reasm)
  · exact hpiggy.owedAck.trans (hreset.owedAck.trans hin.owedAck)
  · rw [hreceive]
    simp only [Sessions.record_store_self, Sessions.peer_store, receive_of_message hack]
    exact ⟨rfl, trivial, trivial⟩

section

variable (hkind : msg.kind ≠ .hello) (hv : msg.Valid) (hg : Arrives s.config msg g)
include hkind hv hg

/-- One part more is there, and the message with it when none is missing. -/
theorem Collects.receive (h : Collects src msg b start got s) (hwindow : 1 ≤ s.config.dedupWindow)
    (hnow : start ≤ now) :
    ((s.onReceive src g now b).2.deliver = none ∧
      Collects src msg b start (fun i => got i ∨ i = g.fragIndex.toNat)
        (s.onReceive src g now b).1 ∧
      ∃ j < msg.parts.length, ¬ (got j ∨ j = g.fragIndex.toNat)) ∨
    (∃ d, (s.onReceive src g now b).2.deliver = some d ∧ d.kind = msg.kind ∧
      d.payload = msg.payload ∧ d.has Flags.retry = false) ∧
      Knows src msg.seq start (s.onReceive src g now b).1 := by
  have hack : g.kind ≠ .ack := hg.fragment.kind ▸ hv.kind
  have hhello : g.kind ≠ .hello := hg.fragment.kind ▸ hkind
  obtain ⟨p, hin, hpresent, hrecord, hdeliver⟩ := receive_eq hack hhello h.present now b
  have hwaiting := h.waiting.same hin
  have hyoung : ∀ r, p.reasm.get msg.seq = some r → start ≤ r.started := hin.reasm ▸ h.young
  have hlater : ∀ r, (receiveMessage s.config p g now b).1.reasm.get msg.seq = some r →
      start ≤ r.started := receiveMessage_young hnow hg.fragment.seq hyoung
  obtain ⟨hunmarked, hfirst⟩ := taken_retry (receiveMessage_taken s.config p g now b) hg.first (by
    rw [hg.fragment.seq, hin.reasm]
    exact h.first)
  rw [hg.fragment.seq] at hfirst
  rw [hdeliver]
  by_cases hlast : ∀ j < msg.parts.length, got j ∨ j = g.fragIndex.toNat
  · right
    obtain ⟨⟨d, hd, hkind, -, hpayload⟩, hdone⟩ := hwaiting.finish hv hg hwindow hlast
    refine ⟨⟨d, hd, hkind, hpayload, hunmarked d hd⟩, hpresent, ?_, ?_⟩
    · rw [hrecord]
      exact hdone.seen
    · rw [hrecord]
      exact hlater
  · left
    have hopen : ∃ j < msg.parts.length, ¬ (got j ∨ j = g.fragIndex.toNat) := by simpa using hlast
    obtain ⟨hnone, hkeep⟩ := hwaiting.keep hg hopen
    refine ⟨hnone, ⟨hpresent, ?_, ?_, ?_⟩, hopen⟩
    · rw [hrecord]
      exact ⟨hkeep.new, rfl, hkeep.buffer, hkeep.parts⟩
    · rw [hrecord]
      exact hlater
    · rw [hrecord]
      exact hfirst

/-- A frame of a message that was delivered changes nothing. -/
theorem Knows.receive (h : Knows src msg.seq start s) (hnow : start ≤ now) :
    (s.onReceive src g now b).2.deliver = none ∧
      Knows src msg.seq start (s.onReceive src g now b).1 := by
  have hack : g.kind ≠ .ack := hg.fragment.kind ▸ hv.kind
  have hhello : g.kind ≠ .hello := hg.fragment.kind ▸ hkind
  obtain ⟨p, hin, hpresent, hrecord, hdeliver⟩ := receive_eq hack hhello h.present now b
  have hseen : g.seq ∈ p.seen := by
    rw [hin.seen, hg.fragment.seq]
    exact h.seen
  have hagain := receiveMessage_taken s.config p g now b
  rw [← hrecord, ← hdeliver] at hagain
  have hquiet : (s.onReceive src g now b).2.deliver = none ∧
      ((s.onReceive src g now b).1.record src).seen = p.seen := by
    generalize (s.onReceive src g now b).1.record src = q,
      (s.onReceive src g now b).2.deliver = deliver at hagain ⊢
    cases hagain with
    | again _ _ _ hsame _ hnone => exact ⟨hnone.trans (if_neg hhello), hsame⟩
    | single _ hnew | refused hnew | kept _ hnew | finished _ hnew => exact absurd hseen hnew
  refine ⟨hquiet.1, hpresent, ?_, ?_⟩
  · rw [hquiet.2, hin.seen]
    exact h.seen
  · rw [hrecord]
    refine receiveMessage_young hnow hg.fragment.seq ?_
    rw [hin.reasm]
    exact h.young

end

end MessageArrival
