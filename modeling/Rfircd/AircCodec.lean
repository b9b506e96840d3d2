import Rfircd.Airc

/-! AIRC frames and octet strings are the same thing.
The flag for an acknowledgement says what the frame carries; the other bits are kept as they come. -/
namespace AircCodec

open Airc

variable {f : AircFrame} {buf : List UInt8}

/-- A part of a message that exists, and a flag that is true. -/
structure WellFormed (f : AircFrame) : Prop where
  parts : 1 ≤ f.fragTotal
  part : f.fragIndex < f.fragTotal
  flag : f.flags &&& Flags.piggyack ≠ 0 ↔ f.piggybackSeq.isSome

/-! ### From frames to octets and back -/

theorem piggyack_kept : ∀ b : BitVec 8, (b &&& 8 ≠ 0 → b &&& ~~~8 ||| 8 = b) ∧
    (b &&& 8 = 0 → b &&& ~~~8 = b) := by
  decide +kernel

theorem flags_kept (flags : UInt8) :
    (flags &&& Flags.piggyack ≠ 0 → flags &&& ~~~Flags.piggyack ||| Flags.piggyack = flags) ∧
      (flags &&& Flags.piggyack = 0 → flags &&& ~~~Flags.piggyack = flags) := by
  obtain ⟨hset, hclear⟩ := piggyack_kept flags.toBitVec
  constructor
  · intro h
    apply UInt8.toBitVec_inj.mp
    exact hset fun hz => h (UInt8.toBitVec_inj.mp hz)
  · intro h
    apply UInt8.toBitVec_inj.mp
    exact hclear (congrArg UInt8.toBitVec h)

/-- What goes out is the flags of the frame. -/
theorem WellFormed.wireFlags (h : WellFormed f) : f.wireFlags = f.flags := by
  obtain ⟨hset, hclear⟩ := flags_kept f.flags
  unfold AircFrame.wireFlags
  by_cases hsome : f.piggybackSeq.isSome
  · rw [if_pos hsome]
    exact hset (h.flag.mpr hsome)
  · rw [if_neg hsome]
    exact hclear (not_not.mp fun hne => hsome (h.flag.mp hne))

theorem WellFormed.decode_encode (h : WellFormed f) : AircFrame.decode f.encode = .ok f := by
  rw [Airc.decode_encode h.part, h.wireFlags]

/-! ### From octets to frames and back -/

theorem toBeBytes_fromBeBytes (hi lo : UInt8) : toBeBytes (fromBeBytes hi lo) = [hi, lo] := by
  have hhi := hi.toNat_lt
  have hlo := lo.toNat_lt
  have hval : (fromBeBytes hi lo).toNat = hi.toNat * 256 + lo.toNat := by
    rw [fromBeBytes, UInt16.toNat_ofNat']
    omega
  rw [toBeBytes, hval]
  congr 1
  · apply UInt8.toNat_inj.mp
    rw [UInt8.toNat_ofNat']
    omega
  · congr 1
    apply UInt8.toNat_inj.mp
    rw [UInt8.toNat_ofNat']
    omega

/-- A kind is known by one octet. -/
theorem Kind.code_of_tryFrom {v : UInt8} {k : Kind} (h : Kind.tryFrom v = .ok k) : k.code = v := by
  unfold Kind.tryFrom at h
  cases hfind : Kind.all.find? (·.code = v) with
  | none =>
    rw [hfind] at h
    cases h
  | some kind =>
    rw [hfind] at h
    cases h
    simpa using List.find?_some hfind

/-- What a header must say. -/
structure Header (buf : List UInt8) (f : AircFrame) (rest : List UInt8) : Prop where
  octets : buf = [0x41, 0x31, f.kind.code, f.flags] ++ toBeBytes f.seq ++
    [f.fragIndex, f.fragTotal] ++ rest
  parts : 1 ≤ f.fragTotal
  part : f.fragIndex < f.fragTotal

/-- What is accepted has a header, and the flag decides what comes after it. -/
theorem decode_spec (h : AircFrame.decode buf = .ok f) :
    ∃ rest, Header buf f rest ∧
      ((f.flags &&& Flags.piggyack ≠ 0 ∧
          ∃ hi lo, rest = hi :: lo :: f.payload ∧ f.piggybackSeq = some (fromBeBytes hi lo)) ∨
        (f.flags &&& Flags.piggyack = 0 ∧ rest = f.payload ∧ f.piggybackSeq = none)) := by
  unfold AircFrame.decode at h
  split at h
  · rename_i a one kind flags hi lo index total payload
    by_cases hmagic : a ≠ 0x41 ∨ one ≠ 0x31
    · rw [if_pos hmagic] at h
      cases h
    rw [if_neg hmagic] at h
    obtain ⟨rfl, rfl⟩ : a = 0x41 ∧ one = 0x31 := by simpa using hmagic
    by_cases hpart : total = 0 ∨ total ≤ index
    · rw [if_pos hpart] at h
      cases h
    rw [if_neg hpart] at h
    obtain ⟨htotal, hindex⟩ : total ≠ 0 ∧ ¬ total ≤ index := by simpa using hpart
    have hparts : 1 ≤ total := by
      rw [UInt8.le_iff_toNat_le]
      exact Nat.one_le_iff_ne_zero.mpr fun hz => htotal (UInt8.toNat_inj.mp hz)
    cases hkind : Kind.tryFrom kind with
    | error e =>
      rw [hkind] at h
      split_ifs at h
      · cases payload with
        | nil => cases h
        | cons phi payload => cases payload <;> cases h
      · cases h
    | ok k =>
      rw [hkind] at h
      have hcode := Kind.code_of_tryFrom hkind
      have hheader : ∀ rest acked, Header
          (0x41 :: 0x31 :: kind :: flags :: hi :: lo :: index :: total :: payload)
          ⟨k, flags, fromBeBytes hi lo, index, total, rest, acked⟩ payload := by
        intro rest acked
        refine ⟨?_, hparts, UInt8.not_le.mp hindex⟩
        rw [toBeBytes_fromBeBytes, hcode]
        rfl
      refine ⟨payload, ?_⟩
      by_cases hflag : flags &&& Flags.piggyack ≠ 0
      · rw [if_pos hflag] at h
        rcases payload with - | ⟨phi, - | ⟨plo, rest⟩⟩
        · cases h
        · cases h
        · cases h
          exact ⟨hheader _ _, .inl ⟨hflag, phi, plo, rfl, rfl⟩⟩
      · rw [if_neg hflag] at h
        cases h
        exact ⟨hheader _ _, .inr ⟨not_not.mp hflag, rfl, rfl⟩⟩
  · cases h

theorem wellFormed_of_decode (h : AircFrame.decode buf = .ok f) : WellFormed f := by
  obtain ⟨rest, hheader, ⟨hflag, hi, lo, -, hacked⟩ | ⟨hflag, -, hacked⟩⟩ := decode_spec h
  · exact ⟨hheader.parts, hheader.part, by simp [hflag, hacked]⟩
  · exact ⟨hheader.parts, hheader.part, by simp [hflag, hacked]⟩

theorem encode_of_decode (h : AircFrame.decode buf = .ok f) : f.encode = buf := by
  have hflags : f.wireFlags = f.flags := (wellFormed_of_decode h).wireFlags
  have hencode : f.encode = [0x41, 0x31, f.kind.code, f.wireFlags] ++ toBeBytes f.seq ++
    [f.fragIndex, f.fragTotal] ++ (f.piggybackSeq.map toBeBytes).getD [] ++ f.payload := rfl
  obtain ⟨rest, hheader, ⟨-, hi, lo, hrest, hacked⟩ | ⟨-, hrest, hacked⟩⟩ := decode_spec h
  · rw [hencode, hflags, hacked, Option.map_some, Option.getD_some, toBeBytes_fromBeBytes,
      hheader.octets, hrest]
    simp
  · rw [hencode, hflags, hacked, hheader.octets, hrest]
    simp

/-- Encoding and decoding are inverse to each other: every well-formed frame is read back, every
octet string that is accepted is written back, and no two of them are the same frame. -/
theorem codec_is_exact :
    (∀ f, WellFormed f → AircFrame.decode f.encode = .ok f) ∧
      (∀ buf f, AircFrame.decode buf = .ok f → WellFormed f ∧ f.encode = buf) ∧
      ∀ a b f, AircFrame.decode a = .ok f → AircFrame.decode b = .ok f → a = b := by
  refine ⟨fun f h => h.decode_encode, fun buf f h => ⟨wellFormed_of_decode h, encode_of_decode h⟩, ?_⟩
  intro a b f ha hb
  rw [← encode_of_decode ha, encode_of_decode hb]

/-- A message that carries an acknowledgement, with a reserved bit of the flags set. -/
def carrying : AircFrame := ⟨.msg, 0x89, 7, 1, 2, [0x68, 0x69], some 300⟩

theorem codec_is_exact_carrying :
    AircFrame.decode carrying.encode = .ok carrying ∧ carrying.encode =
      [0x41, 0x31, 0x05, 0x89, 0, 7, 1, 2, 1, 44, 0x68, 0x69] := by
  have hwell : WellFormed carrying := ⟨by decide, by decide, by decide⟩
  have hread : AircFrame.decode [0x41, 0x31, 0x05, 0x89, 0, 7, 1, 2, 1, 44, 0x68, 0x69] =
    .ok carrying := by decide +kernel
  exact ⟨codec_is_exact.1 _ hwell, (codec_is_exact.2.1 _ _ hread).2⟩

end AircCodec
