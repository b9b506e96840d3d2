import Rfircd.Ax25Codec
import Rfircd.TransmitPump
import Rfircd.VirtualChannel

/-! The octets of a link to a TNC: what the TNC task writes from the moment it is connected, and
the frames that it reads. Two such tasks on the virtual channel hear each other. -/
namespace TncLink

open Ax25 Ax25Codec Basics KissFraming SharedLog TransitionSystem TransmitPump VirtualChannel

def cmdTxdelay : UInt8 := 0x01
def cmdPersistence : UInt8 := 0x02
def cmdSlottime : UInt8 := 0x03
def cmdTxtail : UInt8 := 0x04
def cmdFullduplex : UInt8 := 0x05

/-- The fields of the configuration that the octets depend on. -/
structure LinkConfig where
  kissPort : UInt8
  persistence : Option UInt8
  slottime : Option UInt8
  tnc : TncConfig

/-- In units of ten milliseconds. -/
def msToKiss (duration : ℕ) : UInt8 := .ofNat (min (duration / millis 1 / 10) 255)

namespace LinkConfig

def params (cfg : LinkConfig) : List (UInt8 × UInt8) :=
  [(cmdTxdelay, msToKiss cfg.tnc.airtime.txdelay), (cmdTxtail, msToKiss cfg.tnc.airtime.txtail),
    (cmdFullduplex, 0)] ++
  cfg.persistence.toList.map (cmdPersistence, ·) ++ cfg.slottime.toList.map (cmdSlottime, ·)

/-- Pushed at connect. -/
def greeting (cfg : LinkConfig) : List UInt8 :=
  cfg.params.flatMap fun p => encode cfg.kissPort p.1 [p.2]

def writeKiss (cfg : LinkConfig) (f : Ax25Frame) : List UInt8 :=
  encode cfg.kissPort cmdData f.encode

/-- All that is written on a connection over which these frames are transmitted. -/
def transmitted (cfg : LinkConfig) (frames : List Ax25Frame) : List UInt8 :=
  cfg.greeting ++ frames.flatMap cfg.writeKiss

/-- What the task makes of a frame from the TNC. -/
def accept (cfg : LinkConfig) (kf : KissFrame) : Option Ax25Frame :=
  if kf.command ≠ cmdData then none
  else if kf.port ≠ cfg.kissPort then none
  else (Ax25Frame.decode kf.payload).toOption

/-- The frames that the task hands on, of octets that come in these reads. -/
def received (cfg : LinkConfig) (reads : List (List UInt8)) : List Ax25Frame :=
  ((KissDecoder.new cfg.tnc.maxFrame).pushChunks reads).2.filterMap cfg.accept

end LinkConfig

variable {cfg : LinkConfig}

/-! ### The parameters -/

theorem typeOctet_masked : ∀ p c : UInt8, typeOctet (p &&& 0x0F) c = typeOctet p c := by
  intro p c
  simp only [typeOctet, UInt8.and_assoc, UInt8.and_self]

theorem encode_masked (port command : UInt8) (payload : List UInt8) :
    encode (port &&& 0x0F) command payload = encode port command payload := by
  simp only [encode, typeOctet_masked]

theorem masked_lt (p : UInt8) : p &&& 0x0F < 16 := by
  rw [UInt8.lt_iff_toNat_lt, UInt8.toNat_and]
  exact Nat.and_lt_two_pow p.toNat (by decide : (0x0F : UInt8).toNat < 2 ^ 4)

/-- A parameter as the TNC reads it. -/
def paramFrame (port : UInt8) (p : UInt8 × UInt8) : KissFrame := ⟨port &&& 0x0F, p.1, [p.2]⟩

def airFrame (port : UInt8) (f : Ax25Frame) : KissFrame := ⟨port &&& 0x0F, cmdData, f.encode⟩

theorem params_command {p : UInt8 × UInt8} (h : p ∈ cfg.params) : p.1 < 16 ∧ p.1 ≠ cmdData := by
  have hc : p.1 ∈ [cmdTxdelay, cmdTxtail, cmdFullduplex, cmdPersistence, cmdSlottime] := by
    simp only [LinkConfig.params, List.mem_append, List.mem_cons, List.mem_map, List.not_mem_nil,
      or_false] at h
    rcases h with ((rfl | rfl | rfl) | ⟨v, -, rfl⟩) | ⟨v, -, rfl⟩ <;> simp
  have hall : ∀ c ∈ [cmdTxdelay, cmdTxtail, cmdFullduplex, cmdPersistence, cmdSlottime],
      c < 16 ∧ c ≠ cmdData := by decide
  exact hall _ hc

theorem transmitted_eq (cfg : LinkConfig) (frames : List Ax25Frame) :
    cfg.transmitted frames = (cfg.params.map (paramFrame cfg.kissPort) ++
      frames.map (airFrame cfg.kissPort)).flatMap KissFrame.encode := by
  rw [List.flatMap_append, List.flatMap_map, List.flatMap_map]
  simp only [LinkConfig.transmitted, LinkConfig.greeting, KissFrame.encode,
    paramFrame, airFrame, encode_masked]
  rfl

theorem transmitted_fits (cfg : LinkConfig) {size : ℕ} {frames : List Ax25Frame} (hsize : 2 ≤ size)
    (hframes : ∀ f ∈ frames, f.encode.length + 1 ≤ size) :
    ∀ kf ∈ cfg.params.map (paramFrame cfg.kissPort) ++ frames.map (airFrame cfg.kissPort),
      Fits size kf := by
  intro kf hkf
  rcases List.mem_append.mp hkf with hkf | hkf
  · obtain ⟨p, hp, rfl⟩ := List.mem_map.mp hkf
    exact ⟨masked_lt _, (params_command hp).1, hsize⟩
  · obtain ⟨f, hf, rfl⟩ := List.mem_map.mp hkf
    exact ⟨masked_lt _, (by decide : cmdData < 16), hframes f hf⟩

theorem dataPayloads_transmitted (cfg : LinkConfig) (frames : List Ax25Frame) :
    dataPayloads (cfg.params.map (paramFrame cfg.kissPort) ++ frames.map (airFrame cfg.kissPort)) =
      frames.map Ax25Frame.encode := by
  have hparams : (cfg.params.map (paramFrame cfg.kissPort)).filter (·.command = cmdData) = [] := by
    rw [List.filter_eq_nil_iff]
    intro kf hkf
    obtain ⟨p, hp, rfl⟩ := List.mem_map.mp hkf
    have hcommand := (params_command hp).2
    simp [paramFrame, hcommand]
  rw [dataPayloads, List.filter_append, hparams, List.nil_append, List.filter_eq_self.mpr]
  · rw [List.map_map]
    rfl
  · intro kf hkf
    obtain ⟨f, -, rfl⟩ := List.mem_map.mp hkf
    simp [airFrame]

/-! ### Through the channel -/

variable {air : List (ℕ × Ax25Frame)}

/-- A log of frames, as the channel carries it. -/
def carried (air : List (ℕ × Ax25Frame)) : List (ℕ × List UInt8) :=
  air.map fun e => (e.1, e.2.encode)

theorem saidBy_carried (a : ℕ) (air : List (ℕ × Ax25Frame)) :
    saidBy a (carried air) = (saidBy a air).map Ax25Frame.encode := by
  simp only [saidBy, carried, List.filter_map, List.map_map]
  rfl

theorem heardBy_carried (b : ℕ) (w : Span) (air : List (ℕ × Ax25Frame)) :
    heardBy b w (carried air) = (heardBy b w air).map Ax25Frame.encode := by
  simp only [heardBy, window, carried, List.length_map, ← List.map_take, ← List.map_drop,
    List.filter_map, List.map_map]
  rfl

/-- A log of octets that all encode frames is the log of these frames. -/
theorem exists_carried {P : ℕ → Ax25Frame → Prop} {log : List (ℕ × List UInt8)}
    (h : ∀ e ∈ log, ∃ f, P e.1 f ∧ f.encode = e.2) :
    ∃ air, log = carried air ∧ ∀ e ∈ air, P e.1 e.2 := by
  induction log with
  | nil => exact ⟨[], rfl, by simp⟩
  | cons e log ih =>
    obtain ⟨⟨f, hp, hf⟩, hrest⟩ := List.forall_mem_cons.mp h
    obtain ⟨air, rfl, hair⟩ := ih hrest
    exact ⟨(e.1, f) :: air, by simp [carried, hf], List.forall_mem_cons.mpr ⟨hp, hair⟩⟩

def readBack (payload : List UInt8) : Option Ax25Frame := (Ax25Frame.decode payload).toOption

theorem readBack_all {frames : List Ax25Frame} (h : ∀ f ∈ frames, WellFormed f) :
    (frames.map Ax25Frame.encode).filterMap readBack = frames := by
  induction frames with
  | nil => rfl
  | cons f frames ih =>
    obtain ⟨hf, hrest⟩ := List.forall_mem_cons.mp h
    have hback : readBack f.encode = some f := by
      rw [readBack, hf.decode_encode]
      rfl
    rw [List.map_cons, List.filterMap_cons, hback, ih hrest]

theorem prefix_of_encodes {frames frames' : List Ax25Frame} (h : ∀ f ∈ frames, WellFormed f)
    (h' : ∀ f ∈ frames', WellFormed f)
    (hp : frames.map Ax25Frame.encode <+: frames'.map Ax25Frame.encode) : frames <+: frames' := by
  have hread := hp.filterMap readBack
  rwa [readBack_all h, readBack_all h'] at hread

theorem accept_all {frames : List Ax25Frame} (hport : cfg.kissPort = 0)
    (h : ∀ f ∈ frames, WellFormed f) :
    ((frames.map Ax25Frame.encode).map dataFrame).filterMap cfg.accept = frames := by
  have haccept : ∀ payload, cfg.accept (dataFrame payload) = readBack payload := by
    intro payload
    simp [LinkConfig.accept, dataFrame, hport, readBack]
  rw [List.filterMap_map]
  simp only [Function.comp_def, haccept]
  exact readBack_all h

/-- What a TNC task has put on the channel are its frames, as far as its octets have come. -/
theorem saidBy_prefix {log : List (ℕ × List UInt8)} {member : Prop} {a : ℕ} {st : Station}
    {frames : List Ax25Frame} (hs : Sound log member a st)
    (hsize : ∀ f ∈ frames, f.encode.length + 1 ≤ VirtualChannel.maxFrame)
    (hwrote : st.taken <+: cfg.transmitted frames) :
    saidBy a log <+: frames.map Ax25Frame.encode := by
  rw [transmitted_eq] at hwrote
  have hfits := transmitted_fits cfg (by decide) hsize
  have hdecoded : (decoded st.taken).2 <+: _ := push_frames_prefix hfits hwrote
  have hdata := (hdecoded.filter (·.command = cmdData)).map KissFrame.payload
  have hpayloads : dataPayloads (decoded st.taken).2 <+: frames.map Ax25Frame.encode := by
    rw [← dataPayloads_transmitted cfg frames]
    exact hdata
  rw [← hs.spoken] at hpayloads
  exact (List.prefix_append _ _).trans hpayloads

/-- TNC tasks on the virtual channel exchange frames and nothing else: each puts its frames on the
channel in order, and one on port 0 with room for them hands on, each as it was sent and in the
order of the channel, the frames of all others since it joined. -/
theorem frames_cross_the_channel {h : Hub} (hr : Reachable system (fun _ _ => True) h)
    (link : ℕ → LinkConfig) (frames : ℕ → List Ax25Frame)
    (hformed : ∀ a, ∀ f ∈ frames a, WellFormed f)
    (hsize : ∀ a, ∀ f ∈ frames a, f.encode.length + 1 ≤ VirtualChannel.maxFrame)
    (hwrote : ∀ a < h.nextId, (h.station a).taken <+: (link a).transmitted (frames a))
    {b : ℕ} (hport : (link b).kissPort = 0)
    (hroom : ∀ a, ∀ f ∈ frames a, f.encode.length + 1 ≤ (link b).tnc.maxFrame)
    (reads : List (List UInt8)) (hreads : reads.flatten = (h.station b).written) :
    ∃ air, h.log = carried air ∧ (∀ a, saidBy a air <+: frames a) ∧
      (link b).received reads <+: heardBy b (h.station b).span air ∧
      ((h.station b).writer = true → (h.station b).writing = [] → (h.station b).queue = [] →
        (link b).received reads = heardBy b (h.station b).span air) := by
  have hh := reachable_coherent hr
  have hsaid : ∀ a, saidBy a h.log <+: (frames a).map Ax25Frame.encode := by
    intro a
    have htaken : (h.station a).taken <+: (link a).transmitted (frames a) := by
      by_cases ha : a < h.nextId
      · exact hwrote a ha
      · rw [hh.taken_ahead (not_lt.mp ha)]
        exact List.nil_prefix
    exact saidBy_prefix (hh.station a) (hsize a) htaken
  have hlog : ∀ e ∈ h.log, ∃ f, f ∈ frames e.1 ∧ f.encode = e.2 := by
    intro e he
    have hmem : e.2 ∈ saidBy e.1 h.log :=
      List.mem_map.mpr ⟨e, List.mem_filter.mpr ⟨he, by simp⟩, rfl⟩
    exact List.mem_map.mp ((hsaid e.1).subset hmem)
  obtain ⟨air, hair, hframes⟩ := exists_carried (P := fun a f => f ∈ frames a) hlog
  have hheard : ∀ f ∈ heardBy b (h.station b).span air, ∃ a, f ∈ frames a := by
    intro f hf
    obtain ⟨a, -, ha⟩ := mem_heardBy hf
    exact ⟨a, hframes _ ha⟩
  have hb := hh.station b
  have hwire := hb.wire
  have hwhole := hb.whole
  rw [hair, heardBy_carried, encodes_eq] at hwire hwhole
  have hfits : ∀ kf ∈ ((heardBy b (h.station b).span air).map Ax25Frame.encode).map dataFrame,
      Fits (link b).tnc.maxFrame kf := by
    intro kf hkf
    simp only [List.mem_map] at hkf
    obtain ⟨_, ⟨f, hf, rfl⟩, rfl⟩ := hkf
    obtain ⟨a, ha⟩ := hheard f hf
    exact dataFrame_fits (hroom a f ha)
  have hwell : ∀ f ∈ heardBy b (h.station b).span air, WellFormed f := by
    intro f hf
    obtain ⟨a, ha⟩ := hheard f hf
    exact hformed a f ha
  refine ⟨air, hair, fun a => ?_, ?_, fun hwriter hwriting hqueue => ?_⟩
  · have hsaidAir : ∀ f ∈ saidBy a air, WellFormed f := by
      intro f hf
      simp only [saidBy, List.mem_map, List.mem_filter, decide_eq_true_eq] at hf
      obtain ⟨e, ⟨he, rfl⟩, rfl⟩ := hf
      exact hformed e.1 e.2 (hframes e he)
    refine prefix_of_encodes hsaidAir (hformed a) ?_
    rw [← saidBy_carried, ← hair]
    exact hsaid a
  · have hgot := push_frames_prefix hfits ((List.prefix_append _ _).trans hwire)
    rw [LinkConfig.received, pushChunks_flatten, hreads, ← accept_all hport hwell]
    exact hgot.filterMap _
  · have hall := hwhole hwriter
    rw [hwriting, hqueue] at hall
    simp only [List.flatten_nil, List.append_nil] at hall
    rw [LinkConfig.received, pushChunks_flatten, hreads, hall, push_frames _ hfits]
    exact accept_all hport hwell

/-- A gateway on port 3 of its TNC, and a station. -/
def gatewayLink : LinkConfig := ⟨3, some 63, none, .default⟩
def stationLink : LinkConfig := ⟨0, none, none, .default⟩

def hello : Ax25Frame :=
  ⟨.new ⟨"AIRC", 0⟩, .new ⟨"SK0MT", 1⟩, [], controlUi, some pidNoL3, [0x41, fend]⟩

def linked (a : ℕ) : LinkConfig := if a = 1 then gatewayLink else stationLink

def sent (a : ℕ) : List Ax25Frame := if a = 1 then [hello] else []

theorem sent_spec {P : Ax25Frame → Prop} (h : P hello) : ∀ a, ∀ f ∈ sent a, P f := by
  intro a f hf
  unfold sent at hf
  split_ifs at hf
  · rwa [List.mem_singleton.mp hf]
  · simp at hf

def afterHello : Hub :=
  [.accept, .enter 1, .accept, .enter 2, .read 1 ((gatewayLink.transmitted [hello]).take 9),
    .read 1 ((gatewayLink.transmitted [hello]).drop 9), .relay 1, .receive 2,
    .write 2 7, .write 2 15].foldl Hub.next .new

theorem frames_cross_the_channel_hello : ∃ air, afterHello.log = carried air ∧
    stationLink.received [(encode 0 cmdData hello.encode).take 7,
      (encode 0 cmdData hello.encode).drop 7] = heardBy 2 (.since 0) air := by
  have hr : Reachable system (fun _ _ => True) afterHello :=
    (Reachable.initial rfl).run (by decide +kernel)
  have hspan : (afterHello.station 2).span = .since 0 := by decide +kernel
  obtain ⟨air, hlog, -, -, hall⟩ := frames_cross_the_channel hr linked sent
    (sent_spec (by decide +kernel)) (sent_spec (by decide +kernel)) (by decide +kernel) (b := 2) rfl
    (sent_spec (by decide +kernel))
    [(encode 0 cmdData hello.encode).take 7, (encode 0 cmdData hello.encode).drop 7]
    (by decide +kernel)
  rw [hspan] at hall
  exact ⟨air, hlog, hall (by decide +kernel) (by decide +kernel) (by decide +kernel)⟩

end TncLink
