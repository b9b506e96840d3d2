import Rfircd.StationRequests

/-! Whose words are on the air, and who let them through.
Everything that is radiated is on record with its author: an Internet user, with what was known of
it when its words were taken, or a station, with what it said. -/
namespace AirContent

open Basics Ax25 Airc KeyedTable MessageText IrcState AprsCodec AirPolicy ServerOutput ServerCore
open ServerCore.Server Bridge ServerRuns ServerSteps ServerInvariants StationRequests TransitionSystem

variable {s t : Server} {verifies : Text → Text → Prop} {reader : BeaconReader}

/-! ### Words of Internet users -/

/-- Words of an Internet user were screened, for a user who might transmit under a permitted call. -/
def Cleared (r : Aired) : Prop := ∀ uid acc, r.origin = .ip uid acc → acc.cleared = true

def cleared : Licence :=
  ⟨{ OutletLicence.free with aired := Cleared }, fun _ => True, fun _ => True, fun _ _ => True,
    fun _ => True, fun _ => True⟩

theorem cleared_fair : Fair cleared where
  cleared := by
    intro uid acc text hacc j a h
    obtain ⟨-, rfl⟩ := Origin.ip.inj h
    exact hacc
  admissible := fun _ _ _ => trivial
  entitled := fun _ _ _ => trivial

/-- A station that comes into a channel over AIRC is told no topic that was not let through. -/
def TopicsCleared (reader : BeaconReader) (s : Server) (e : Moment × ServerRuns.Event) : Prop :=
  ∀ f, e.2 = .rf f → ∀ q, Asks reader s e.1 f q → q.reply = true →
    ∀ chan ∈ s.state.channel q.channel, chan.rf = true →
      chan.isMember (.rf f.source.call) = false → ∀ topic ∈ chan.topic,
        Cleared ⟨chan.topicOrigin, topic⟩

/-- What a licence has to allow of a frame, when it asks nothing of members and talkers. -/
theorem content_frameTerms {L : Licence} {m : Moment} {f : Ax25Frame} (hs : Named s)
    (henters : ∀ call channel, L.enters call channel) (hjoined : ∀ r, L.joined r) (hrelayed : ∀ r, L.relayed r) (hrepeats : Repeats L s)
    (htells : ∀ body, Tells reader s f body → L.aired ⟨.station f.source.call body, body⟩)
    (htopic : ∀ q, Asks reader s m f q → q.reply = true →
      ∀ chan ∈ s.state.channel q.channel, chan.rf = true →
        chan.isMember (.rf f.source.call) = false → ∀ topic ∈ chan.topic,
          L.aired ⟨chan.topicOrigin, topic.take 64⟩) : FrameTerms L reader s m f := by
  have hjoin : ∀ q, Asks reader s m f q → ∀ t, Near f.source.call s t →
      MayJoin L t f.source.call (t.channelDisplayName q.channel) q.reply := by
    intro q hq t ht
    refine ⟨henters _ _, fun _ _ _ _ => hjoined _, fun hreply chan hchan hrf hout hsome => ?_⟩
    have hchan' : s.state.channel q.channel = some chan := by
      rw [← channel_near ht, ← channel_display (named_near hs ht), hchan]
    obtain ⟨topic, htopic'⟩ := Option.isSome_iff_exists.mp hsome
    rw [htopic']
    exact htopic q hq hreply chan hchan' hrf hout topic htopic'
  refine ⟨hrepeats, htells, fun q hq _ => hjoin q hq, fun q hq hspeaks t ht => ?_⟩
  exact mayChat_of (named_near hs ht) (asks_name hq hspeaks) (fun _ => hjoin q hq t ht)
    (fun _ _ _ _ _ => hrelayed _) (fun _ _ _ _ _ _ _ => hrelayed _)

theorem topics_licensed {e : Moment × ServerRuns.Event} (hs : Grounded s)
    (hg : TopicsCleared reader s e) (he : ServerRuns.Enabled verifies s e) :
    EventLicence cleared reader s e := by
  refine content_licensed cleared_fair ⟨fun _ _ => trivial, fun _ _ => trivial,
      fun _ _ => trivial, fun _ => trivial, fun _ => trivial⟩
    (fun _ _ => trivial) (fun _ => trivial) (fun _ => trivial) hs.standing he ?_
  intro f hf
  refine content_frameTerms hs.named (fun _ _ => trivial) (fun _ => trivial) (fun _ => trivial)
    (fun _ _ _ _ _ _ h => by cases h) (fun _ _ _ _ h => by cases h) ?_
  intro q hq hreply chan hchan hrf hout topic htopic uid acc horigin
  exact hg f hf q hq hreply chan hchan hrf hout topic htopic uid acc horigin

/-- In every run whose stations come into channels with cleared topics, all words of Internet users
that were ever radiated were let through. -/
theorem words_of_users_were_cleared (h : Reachable (system reader verifies) (TopicsCleared reader) s) :
    ∀ r ∈ s.outlet.aired, Cleared r :=
  (reachable_onRecord (L := fun _ => cleared) (fun _ => trivial) (fun _ _ hs hg he => topics_licensed hs hg he) h).aired

/-- An operator without a callsign sets the topic of a bridged channel, and a station joins. -/
def uncleanTopic : List ServerRuns.Event :=
  Small.joins 1 "anna" false ++
    [.line 1 "OPER root secret", .line 1 "JOIN #rf", .line 1 "TOPIC #rf :meet at noon",
      Small.airc Small.station .join 1 ["#rf"]]

theorem unclean_topic_is_radiated :
    Reachable (system Small.noBeacon Eq) everyStep (Small.run uncleanTopic) ∧
      ∃ r ∈ (Small.run uncleanTopic).outlet.aired, ¬ Cleared r := by
  refine ⟨Small.reachable (by decide +kernel), ?_⟩
  have haired : (Small.run uncleanTopic).outlet.aired =
      [⟨.ip (.ip 1) ⟨true, false, false⟩, "meet at noon"⟩] := by decide +kernel
  rw [haired]
  exact ⟨_, List.mem_singleton_self _, fun h => absurd (h _ _ rfl) (by decide)⟩

/-- The same operator takes a callsign, and speaks. -/
def cleanWords : List ServerRuns.Event :=
  Small.joins 1 "anna" false ++
    [.line 1 "OPER root secret", .line 1 "CALLSIGN SM0AAA", .line 1 "JOIN #rf",
      .line 1 "PRIVMSG #rf :hello"]

theorem clean_words_are_cleared : (Small.run cleanWords).outlet.aired ≠ [] ∧
    ∀ r ∈ (Small.run cleanWords).outlet.aired, Cleared r :=
  ⟨by decide +kernel, words_of_users_were_cleared
    (reachable_without isFrame (fun s e he f hf => by rw [isFrame, hf] at he; cases he)
      (by decide +kernel))⟩

/-! ### Words of stations -/

/-- Words of a station are as the policy returned them for what it said. -/
def Screens (c : PolicyConfig) (r : Aired) : Prop :=
  ∀ call original, r.origin = .station call original → ∀ p : Policy, p.config = c →
    ∃ x, screenStation p original = some x ∧ r.text = x.text

def screened (c : PolicyConfig) : Licence :=
  ⟨{ OutletLicence.free with aired := Screens c }, fun _ => True, fun _ => True, fun _ _ => True,
    fun _ => True, fun _ => True⟩

theorem screened_fair (c : PolicyConfig) : Fair (screened c) where
  cleared := fun _ _ _ _ _ _ h => by cases h
  admissible := fun _ _ _ => trivial
  entitled := fun _ _ _ => trivial

/-- What an APRS radio says to another station by name is let through as it is. -/
def TellsAllowed (reader : BeaconReader) (s : Server) (e : Moment × ServerRuns.Event) : Prop :=
  ∀ f, e.2 = .rf f → ∀ body, Tells reader s f body → s.outlet.policy.screenOutbound body = .allow body

theorem tells_licensed {e : Moment × ServerRuns.Event} (hs : Grounded s)
    (hg : TellsAllowed reader s e) (he : ServerRuns.Enabled verifies s e) :
    EventLicence (screened s.outlet.policy.config) reader s e := by
  refine content_licensed (screened_fair _) ⟨fun _ _ => trivial, fun _ _ => trivial,
      fun _ _ => trivial, fun _ => trivial, fun _ => trivial⟩
    (fun _ _ => trivial) (fun _ => trivial) (fun _ => trivial) hs.standing he ?_
  intro f hf
  refine content_frameTerms hs.named (fun _ _ => trivial) (fun _ => trivial) (fun _ => trivial) ?_ ?_ ?_
  · intro src text x hx call original horigin p hp
    obtain ⟨-, rfl⟩ := Origin.station.inj horigin
    exact ⟨x, (screenStation_config hp text).trans hx, rfl⟩
  · intro body hbody call original horigin p hp
    obtain ⟨-, rfl⟩ := Origin.station.inj horigin
    refine ⟨⟨body, false⟩, (screenStation_config hp body).trans ?_, rfl⟩
    rw [screenStation, hg f hf body hbody]
  · intro q hq hreply chan hchan hrf hout topic htopic call original horigin
    exact absurd horigin (hs.topics _ chan hchan call original)

/-- In every run whose APRS radios say nothing to other stations that the policy would change, all
words of stations that the gateway radiated again are as the policy returned them. -/
theorem words_of_stations_were_screened
    (h : Reachable (system reader verifies) (TellsAllowed reader) s) :
    ∀ r ∈ s.outlet.aired, ∀ call original, r.origin = .station call original →
      ∃ x, screenStation s.outlet.policy original = some x ∧ r.text = x.text := by
  intro r hr call original horigin
  have hrecord := reachable_onRecord (L := screened) (fun _ => trivial)
    (fun _ _ hs hg he => tells_licensed hs hg he) h
  exact hrecord.aired r hr call original horigin s.outlet.policy rfl

/-- A message of an APRS radio to a station that speaks AIRC. -/
def armouredTell : List ServerRuns.Event :=
  [Small.airc Small.station .hello 1 [],
    Small.aprs ⟨"SM0XYZ", 0⟩ "SM0ABC|7 -----BEGIN PGP MESSAGE-----"]

theorem armoured_tell_is_radiated :
    Reachable (system Small.noBeacon Eq) everyStep (Small.run armouredTell) ∧
      ∃ r ∈ (Small.run armouredTell).outlet.aired,
        r.origin = .station ⟨"SM0XYZ", 0⟩ "-----BEGIN PGP MESSAGE-----" ∧
        screenStation (Small.run armouredTell).outlet.policy "-----BEGIN PGP MESSAGE-----" = none := by
  refine ⟨Small.reachable (by decide +kernel), ?_⟩
  have haired : (Small.run armouredTell).outlet.aired =
      [⟨.station ⟨"SM0XYZ", 0⟩ "-----BEGIN PGP MESSAGE-----", "-----BEGIN PGP MESSAGE-----"⟩] := by
    decide +kernel
  rw [haired]
  exact ⟨_, List.mem_singleton_self _, rfl, by decide +kernel⟩

/-- A station that speaks AIRC writes to another one. -/
def aircTell : List ServerRuns.Event :=
  [Small.airc Small.station .hello 1 [],
    Small.airc ⟨"SM0XYZ", 0⟩ .msg 1 ["SM0ABC|7", "hello"]]

theorem airc_tell_is_screened : (Small.run aircTell).outlet.aired ≠ [] ∧
    ∀ r ∈ (Small.run aircTell).outlet.aired, ∀ call original, r.origin = .station call original →
      ∃ x, screenStation (Small.run aircTell).outlet.policy original = some x ∧ r.text = x.text := by
  refine ⟨by decide +kernel, words_of_stations_were_screened
    (reachable_without isAprs (fun s e he f hf body hbody => ?_) (by decide +kernel))⟩
  obtain ⟨msg, target, hheard, -⟩ := hbody
  rw [isAprs, hf] at he
  dsimp only at he
  rw [hheard] at he
  cases he

end AirContent
