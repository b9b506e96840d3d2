import Rfircd.CallsignCascade
import Rfircd.CallsignTexts

/-! The callsigns in the account store.
They are stored as text and read back; each is bound to one nick at most. -/
namespace CallsignRecords

open Basics KeyedTable MessageText IrcState RadioGateway Accounts ServerOutput ServerCore
open ServerCore.Server ServerSteps CallsignCascade Ax25Codec CallsignTexts

variable {a b : Store} {nick : Text} {call : Callsign} {s t : Server}

/-! ### The store -/

/-- Accounts stand under their nicks, their callsigns can be read, and no two have the same. -/
structure Orderly (a : Store) : Prop where
  keyed : ∀ key x, a.nicks.get key = some x → lower x.nick = key
  readable : ∀ key x text, a.nicks.get key = some x → x.callsign = some text →
    ∃ call, Callsign.fromStr text = some call ∧ text = callText call
  single : ∀ key key' x x' text text', a.nicks.get key = some x → a.nicks.get key' = some x' →
    x.callsign = some text → x'.callsign = some text' → lower text = lower text' → key = key'

theorem orderly_empty : Orderly .empty :=
  ⟨fun _ _ h => (by cases h), fun _ _ _ h => (by cases h), fun _ _ _ _ _ _ h => (by cases h)⟩

/-- A store whose accounts have no other callsigns than before. -/
theorem Orderly.of_fewer (h : Orderly a) (hb : ∀ key y, b.nicks.get key = some y →
    lower y.nick = key ∧ (y.callsign = none ∨
      ∃ x, a.nicks.get key = some x ∧ y.callsign = x.callsign)) : Orderly b := by
  have hkept : ∀ key y text, b.nicks.get key = some y → y.callsign = some text →
      ∃ x, a.nicks.get key = some x ∧ x.callsign = some text := by
    intro key y text hy htext
    rcases (hb key y hy).2 with hnone | ⟨x, hx, hsame⟩
    · rw [hnone] at htext
      cases htext
    · exact ⟨x, hx, hsame ▸ htext⟩
  refine ⟨fun key y hy => (hb key y hy).1, fun key y text hy htext => ?_,
    fun key key' y y' text text' hy hy' htext htext' heq => ?_⟩
  · obtain ⟨x, hx, hcall⟩ := hkept key y text hy htext
    exact h.readable key x text hx hcall
  · obtain ⟨x, hx, hcall⟩ := hkept key y text hy htext
    obtain ⟨x', hx', hcall'⟩ := hkept key' y' text' hy' htext'
    exact h.single key key' x x' text text' hx hx' hcall hcall' heq

theorem Orderly.insertHashed {hash : Text} {unix : ℕ} (h : Orderly a)
    (hb : a.insertHashed nick hash unix = .ok b) : Orderly b := by
  unfold Store.insertHashed at hb
  split_ifs at hb
  obtain rfl := Except.ok.inj hb
  refine h.of_fewer fun key y hy => ?_
  rw [Table.get_set] at hy
  split_ifs at hy with hkey
  · obtain rfl := Option.some.inj hy
    exact ⟨hkey.symm, .inl rfl⟩
  · exact ⟨h.keyed key y hy, .inr ⟨y, hy, rfl⟩⟩

theorem modify_eq {f : NickAccount → NickAccount} (hb : a.modify nick f = .ok b) :
    ∃ x, a.nicks.get (lower nick) = some x ∧ ∀ key, b.nicks.get key =
      if key = lower nick then some (f x) else a.nicks.get key := by
  unfold Store.modify at hb
  split at hb
  · cases hb
  · rename_i x hx
    obtain rfl := Except.ok.inj hb
    exact ⟨x, hx, fun key => Table.get_set ..⟩

/-- A change that is not about the callsign. -/
theorem Orderly.modify {f : NickAccount → NickAccount} (hf : ∀ x, (f x).nick = x.nick)
    (hcall : ∀ x, (f x).callsign = x.callsign) (h : Orderly a) (hb : a.modify nick f = .ok b) :
    Orderly b := by
  obtain ⟨x, hx, hget⟩ := modify_eq hb
  refine h.of_fewer fun key y hy => ?_
  rw [hget] at hy
  split_ifs at hy with hkey
  · obtain rfl := Option.some.inj hy
    rw [hf, hcall, hkey]
    exact ⟨h.keyed _ x hx, .inr ⟨x, hx, rfl⟩⟩
  · exact ⟨h.keyed key y hy, .inr ⟨y, hy, rfl⟩⟩

theorem Orderly.dropNick (h : Orderly a) (hb : a.dropNick nick = .ok b) : Orderly b := by
  unfold Store.dropNick at hb
  split_ifs at hb
  obtain rfl := Except.ok.inj hb
  refine h.of_fewer fun key y hy => ?_
  rw [Table.get_erase] at hy
  split_ifs at hy
  exact ⟨h.keyed key y hy, .inr ⟨y, hy, rfl⟩⟩

/-- Who has a callsign is found, whoever is first in the table. -/
theorem bound_spec (a : Store) (text : Text) : match a.bound text with
    | none => ∀ key x stored, a.nicks.get key = some x → x.callsign = some stored →
        lower stored ≠ lower text
    | some (key, x) => a.nicks.get key = some x ∧ ∃ stored, x.callsign = some stored ∧
        lower stored = lower text := by
  unfold Store.bound
  cases hfind : a.nicks.entries.find? fun e => e.2.callsign.any fun c => lower c = lower text with
  | none =>
    intro key x stored hx hstored heq
    have hnot := List.find?_eq_none.mp hfind (key, x) (Table.mem_entries_iff.mpr hx)
    rw [hstored] at hnot
    exact hnot (by simpa using heq)
  | some e =>
    obtain ⟨key, x⟩ := e
    have hmem := List.mem_of_find?_eq_some hfind
    have hcond := List.find?_some hfind
    obtain ⟨stored, hstored, heq⟩ := (Option.any_eq_true _ _).mp hcond
    exact ⟨Table.mem_entries_iff.mp hmem, stored, hstored, by simpa using heq⟩

/-- A callsign is bound to a nick when no other nick has it. -/
theorem setCallsign_spec {text : Text} (h : Orderly a) (hb : a.setCallsign nick text = .ok b) :
    (∃ x, a.nicks.get (lower nick) = some x ∧ ∀ key, b.nicks.get key =
      if key = lower nick then some { x with callsign := some text } else a.nicks.get key) ∧
    ∀ key x stored, a.nicks.get key = some x → x.callsign = some stored →
      lower stored = lower text → key = lower nick := by
  unfold Store.setCallsign at hb
  split_ifs at hb with hreg howner
  refine ⟨modify_eq hb, fun key x stored hx hstored heq => ?_⟩
  have hbound := bound_spec a text
  unfold Store.ownerOfCallsign at howner
  rcases hfound : a.bound text with - | ⟨key', x'⟩
  · rw [hfound] at hbound
    exact absurd heq (hbound key x stored hx hstored)
  · rw [hfound] at hbound howner
    obtain ⟨hx', stored', hstored', heq'⟩ := hbound
    have hkey : key = key' := h.single key key' x x' stored stored' hx hx' hstored hstored'
      (heq.trans heq'.symm)
    rw [hkey, ← h.keyed key' x' hx']
    simpa using howner

theorem Orderly.setCallsign (hvalid : Valid call) (h : Orderly a)
    (hb : a.setCallsign nick (callText call) = .ok b) : Orderly b := by
  obtain ⟨⟨x, hx, hget⟩, hfree⟩ := setCallsign_spec h hb
  -- the account of the nick, or one of the others as it was
  have hcases : ∀ key y text, b.nicks.get key = some y → y.callsign = some text →
      key = lower nick ∧ text = callText call ∨
        key ≠ lower nick ∧ a.nicks.get key = some y := by
    intro key y text hy htext
    rw [hget] at hy
    split_ifs at hy with hkey
    · obtain rfl := Option.some.inj hy
      exact .inl ⟨hkey, (Option.some.inj htext).symm⟩
    · exact .inr ⟨hkey, hy⟩
  refine ⟨fun key y hy => ?_, fun key y text hy htext => ?_,
    fun key key' y y' text text' hy hy' htext htext' heq => ?_⟩
  · rw [hget] at hy
    split_ifs at hy with hkey
    · obtain rfl := Option.some.inj hy
      rw [hkey]
      exact h.keyed _ x hx
    · exact h.keyed key y hy
  · rcases hcases key y text hy htext with ⟨-, rfl⟩ | ⟨-, hold⟩
    · exact ⟨call, fromStr_callText hvalid, rfl⟩
    · exact h.readable key y text hold htext
  · rcases hcases key y text hy htext with ⟨hkey, rfl⟩ | ⟨hkey, hold⟩
    · rcases hcases key' y' text' hy' htext' with ⟨hkey', -⟩ | ⟨hkey', hold'⟩
      · rw [hkey, hkey']
      · exact absurd (hfree key' y' text' hold' htext' heq.symm) hkey'
    · rcases hcases key' y' text' hy' htext' with ⟨hkey', rfl⟩ | ⟨hkey', hold'⟩
      · exact absurd (hfree key y text hold htext heq) hkey
      · exact h.single key key' y y' text text' hold hold' htext htext' heq

/-- A callsign that is released is bound to no nick. -/
theorem clearCallsign_spec {text owner : Text} (h : Orderly a)
    (hb : a.clearCallsign text = .ok (owner, b)) : Orderly b ∧
      ∀ key y stored, b.nicks.get key = some y → y.callsign = some stored →
        lower stored ≠ lower text := by
  unfold Store.clearCallsign at hb
  have hbound := bound_spec a text
  rcases hfound : a.bound text with - | ⟨key', x'⟩
  · rw [hfound] at hb
    cases hb
  · rw [hfound] at hbound hb
    obtain ⟨hx', stored', hstored', heq'⟩ := hbound
    obtain ⟨-, rfl⟩ := Prod.mk.inj (Except.ok.inj hb)
    have hget : ∀ key, (a.nicks.set key' { x' with callsign := none }).get key =
        if key = key' then some { x' with callsign := none } else a.nicks.get key :=
      fun key => Table.get_set ..
    refine ⟨h.of_fewer fun key y hy => ?_, fun key y stored hy hstored heq => ?_⟩
    · rw [hget] at hy
      split_ifs at hy with hkey
      · obtain rfl := Option.some.inj hy
        rw [hkey]
        exact ⟨h.keyed key' x' hx', .inl rfl⟩
      · exact ⟨h.keyed key y hy, .inr ⟨y, hy, rfl⟩⟩
    · rw [hget] at hy
      split_ifs at hy with hkey
      · obtain rfl := Option.some.inj hy
        cases hstored
      · exact hkey (h.single key key' y x' stored stored' hy hx' hstored hstored'
          (heq.trans heq'.symm))

/-! ### Users and their accounts -/

/-- Users stand under their ids, and who is identified has the nick. -/
structure Owned (s : Server) : Prop where
  known : Known s
  owner : ∀ uid u, uid.isRf = false → s.user uid = some u → u.nickIdentified = true →
    s.state.nicks.get (lower u.nick) = some uid

theorem owned_of_standing (h : Standing s) : Owned s where
  known uid u hu := (h.users uid u hu).known
  owner uid u hip hu hi := by
    have hsound := h.users uid u hu
    have hnamed := hsound.named (hsound.registered hip (hsound.identified hip hi).1)
    exact hsound.owned.resolve_left hnamed

theorem own_eq {uid : UserId} {u : User} (hu : s.user uid = some u) : own s uid =
    if u.nickIdentified then ((s.accounts.nicks.get (lower u.nick)).bind NickAccount.callsign).bind
      Callsign.fromStr else none := by
  rw [own, hu]
  rfl

/-- A user's own callsign is in the account of its nick. -/
theorem own_spec (ha : Orderly s.accounts) {uid : UserId} (h : own s uid = some call) :
    ∃ u x, s.user uid = some u ∧ u.nickIdentified = true ∧
      s.accounts.nicks.get (lower u.nick) = some x ∧ x.callsign = some (callText call) ∧
      Valid call := by
  obtain ⟨u, hu, -⟩ := Option.bind_eq_some_iff.mp h
  rw [own_eq hu] at h
  split_ifs at h with hi
  obtain ⟨text, htext, hread⟩ := Option.bind_eq_some_iff.mp h
  obtain ⟨x, hx, hcall⟩ := Option.bind_eq_some_iff.mp htext
  obtain ⟨call', hread', rfl⟩ := ha.readable _ x text hx hcall
  obtain rfl := Option.some.inj (hread'.symm.trans hread)
  exact ⟨u, x, hu, hi, hx, hcall, valid_of_fromStr hread⟩

theorem apart_of_owned (h : Owned s) (ha : Orderly s.accounts) : Apart s := by
  intro uid uid' call hip hip' hown hown'
  obtain ⟨u, x, hu, hi, hx, hcall, -⟩ := own_spec ha hown
  obtain ⟨u', x', hu', hi', hx', hcall', -⟩ := own_spec ha hown'
  have hkey := ha.single _ _ x x' _ _ hx hx' hcall hcall' rfl
  have howner := h.owner uid u hip hu hi
  rw [hkey, h.owner uid' u' hip' hu' hi'] at howner
  exact (Option.some.inj howner).symm

end CallsignRecords
