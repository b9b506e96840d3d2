import Rfircd.StationRequests

/-! Keys, limits and moderation.
The commands of Internet users ask for them; the frames of stations do not. What is promised of both
holds while the stations ask for nothing that the modes would refuse. -/
namespace ChannelModes

open Basics Ax25 Airc KeyedTable MessageText IrcState AirPolicy ServerOutput ServerCore
open ServerCore.Server Bridge ServerRuns ServerSteps ServerInvariants StationRequests TransitionSystem

variable {s t : Server} {verifies : Text → Text → Prop} {reader : BeaconReader}

/-- The licence of the modes: whoever comes in gave the key and found room, and whoever speaks in a
moderated channel has voice. -/
def modes : Licence :=
  ⟨.free, Admissible, Entitled, fun _ _ => True, fun _ => True, fun _ => True⟩

theorem modes_fair : Fair modes := ⟨fun _ _ _ _ => trivial, fun _ _ h => h, fun _ _ h => h⟩

/-- The channel has no key and is not full, as far as the station is not in it yet. -/
def Open (s : Server) (src : Callsign) (name : Text) : Prop :=
  ∀ chan ∈ s.state.channel name, chan.rf = true → chan.isMember (.rf src) = false →
    chan.key = none ∧ ∀ limit ∈ chan.limit, chan.members.size < limit

/-- The flags that the station speaks with: its own, or those that it comes in with. -/
def speakingFlags (s : Server) (src : Callsign) (chan : Channel) : MemberFlags :=
  (chan.members.get (.rf src)).getD
    (s.state.flagsForParts (.rf src) chan.rf chan.members.entries.isEmpty chan.operators)

/-- A member, or a station that is a user already, has voice where it is needed, or gets it on the
way in. -/
def MayBeHeard (s : Server) (src : Callsign) (name : Text) : Prop :=
  ∀ chan ∈ s.state.channel name, chan.rf = true → chan.moderated = true →
    chan.isMember (.rf src) = true ∨ (s.user (.rf src)).isSome = true →
      (speakingFlags s src chan).op = true ∨ (speakingFlags s src chan).voice = true

/-- The frame asks for nothing that the modes refuse. -/
def Respects (reader : BeaconReader) (s : Server) (e : Moment × ServerRuns.Event) : Prop :=
  ∀ f, e.2 = .rf f → ∀ q, Asks reader s e.1 f q →
    Open s f.source.call q.channel ∧ (q.speaks = true → MayBeHeard s f.source.call q.channel)

theorem open_mayJoin {src : Callsign} {name : Text} {reply : Bool} (hs : Named s)
    (hopen : Open s src name) (ht : Near src s t) :
    MayJoin modes t src (t.channelDisplayName name) reply where
  enters := trivial
  joined := by
    intro chan hchan hrf hout
    have hchan' : s.state.channel name = some chan := by
      rw [← channel_near ht, ← channel_display (named_near hs ht), hchan]
    obtain ⟨hkey, hroom⟩ := hopen chan hchan' hrf hout
    simp only [modes, Admissible, joinedRecord, hchan, Option.bind_some, hkey, Option.elim_some]
    exact ⟨fun key h => (by cases h), hroom⟩
  topic := fun _ _ _ _ _ _ => trivial

/-- A new user has its callsign, and with that voice. -/
theorem heard_entitled {src : Callsign} {name : Text} {chan : Channel} {u : User}
    (hheard : MayBeHeard s src name) (ht : Near src s t) (hchan : s.state.channel name = some chan)
    (hrf : chan.rf = true) (hmod : chan.moderated = true) (hu : t.user (.rf src) = some u)
    (hout : chan.members.get (.rf src) = none) :
    (t.state.flagsForParts (.rf src) chan.rf chan.members.entries.isEmpty chan.operators).op = true ∨
      (t.state.flagsForParts (.rf src) chan.rf chan.members.entries.isEmpty chan.operators).voice = true := by
  rcases ht.station with hsame | ⟨-, v, hv, hcall⟩
  · have hflags := hheard chan hchan hrf hmod (.inr (by rw [← hsame, hu]; rfl))
    have hget : t.state.users.get (.rf src) = s.state.users.get (.rf src) := hsame
    simpa only [speakingFlags, hout, Option.getD_none, State.flagsForParts, hget] using hflags
  · have hget : t.state.users.get (.rf src) = some v := hv
    right
    simp [State.flagsForParts, hget, hrf, hcall]

theorem respects_frameTerms {m : Moment} {f : Ax25Frame} (hs : Grounded s)
    (h : Respects reader s (m, .rf f)) : FrameTerms modes reader s m f where
  repeats := fun _ _ _ _ => trivial
  tells := fun _ _ => trivial
  joins := fun q hq _ t ht => open_mayJoin hs.named (h f rfl q hq).1 ht
  chats := by
    intro q hq hspeaks t ht
    let src := f.source.call
    obtain ⟨hopen, hheard⟩ := h f rfl q hq
    have hheard := hheard hspeaks
    have hchannel := channel_near ht q.channel
    refine mayChat_of (named_near hs.named ht) (asks_name hq hspeaks)
      (fun _ => open_mayJoin hs.named hopen ht) ?_ ?_
    · intro chan flags hchan hrf hflags hmod
      rw [hchannel] at hchan
      have hin : chan.isMember (.rf src) = true := Option.isSome_iff_exists.mpr ⟨flags, hflags⟩
      have hvoice := hheard chan hchan hrf hmod (.inl hin)
      rwa [speakingFlags, hflags, Option.getD_some] at hvoice
    · intro chan u hchan hrf hout _ hu hmod
      rw [hchannel] at hchan
      exact heard_entitled hheard ht hchan hrf hmod hu hout

theorem respects_licensed {e : Moment × ServerRuns.Event} (hs : Grounded s)
    (hg : Respects reader s e) (he : ServerRuns.Enabled verifies s e) :
    EventLicence modes reader s e := by
  refine content_licensed modes_fair ⟨fun _ _ => trivial, fun _ _ => trivial,
      fun _ _ => trivial, fun _ => trivial, fun _ => trivial⟩
    (fun _ _ => trivial) (fun _ => trivial) (fun _ => trivial) hs.standing he ?_
  intro f hf
  obtain ⟨m, e⟩ := e
  obtain rfl : e = .rf f := hf
  exact respects_frameTerms hs hg

/-- In every run whose stations ask for nothing that the modes refuse, whoever came into a channel
gave its key and found room, and whoever was relayed to a moderated channel had voice there. -/
theorem modes_bind_both_populations (h : Reachable (system reader verifies) (Respects reader) s) :
    (∀ r ∈ s.joined, Admissible r) ∧ ∀ r ∈ s.relayed, Entitled r := by
  have hrecord := reachable_onRecord (L := fun _ => modes) (fun _ => trivial)
    (fun s e hs hg he => respects_licensed hs hg he) h
  exact ⟨hrecord.joined, hrecord.relayed⟩

/-- An operator speaks in the bridged channel. -/
def operatorSpeaks : List ServerRuns.Event :=
  Small.joins 1 "anna" false ++
    [.line 1 "OPER root secret", .line 1 "JOIN #rf", .line 1 "PRIVMSG #rf :hello"]

theorem operator_has_voice :
    (∀ r ∈ (Small.run operatorSpeaks).joined, Admissible r) ∧
      ∀ r ∈ (Small.run operatorSpeaks).relayed, Entitled r :=
  modes_bind_both_populations
    (reachable_without isFrame (fun s e he f hf => by rw [isFrame, hf] at he; cases he)
      (by decide +kernel))

/-- An operator sets a key, and a station joins without it. -/
def keyedChannel : List ServerRuns.Event :=
  Small.joins 1 "anna" false ++
    [.line 1 "OPER root secret", .line 1 "JOIN #rf", .line 1 "MODE #rf +k key",
      Small.airc Small.station .join 1 ["#rf"]]

theorem station_without_key :
    Reachable (system Small.noBeacon Eq) everyStep (Small.run keyedChannel) ∧
      ∃ r ∈ (Small.run keyedChannel).joined, r.user = .rf Small.station ∧ ¬ Admissible r := by
  refine ⟨Small.reachable (by decide +kernel), ?_⟩
  have hjoined : (Small.run keyedChannel).joined.getLast? =
      some ⟨.rf Small.station, "#rf", some "key", none, none, 1⟩ := by decide +kernel
  refine ⟨_, List.mem_of_getLast? hjoined, rfl, fun h => ?_⟩
  exact absurd (h.1 _ rfl) (by decide)

end ChannelModes
