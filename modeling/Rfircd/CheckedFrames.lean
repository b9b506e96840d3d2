import Rfircd.Airc
import Rfircd.Ax25Codec
import Rfircd.CheckedCode

/-! The decoders of AX.25 and AIRC frames, access by access. None of them leaves its buffer. -/
namespace CheckedFrames

open Basics MessageText Ax25 Airc CheckedCode

variable {buf : List UInt8}

/-! ### AX.25 -/

namespace Address

def decode (buf : List UInt8) : Checked (Except Ax25Error Address) := do
  if buf.length < addressLen then return .error .truncated
  let front ← sliceTo buf 6
  match Address.decodeBase front with
  | .error e => return .error e
  | .ok base =>
    let octet ← index buf 6
    match Callsign.new base ((octet >>> 1) &&& 0x0F).toNat with
    | some call => return .ok ⟨call, octet &&& 0x80 != 0, octet &&& 0x01 != 0⟩
    | none => return .error .badAddress

theorem decode_eq (buf : List UInt8) : decode buf = .ok (Ax25.Address.decode buf) := by
  unfold decode Ax25.Address.decode
  by_cases hshort : buf.length < addressLen
  · rw [if_pos hshort, if_pos hshort]
    rfl
  · have hlength : 7 ≤ buf.length := not_lt.mp hshort
    have hoctet : index buf 6 = .ok (buf.getD 6 0) := by
      refine index_eq ?_
      rw [List.getD_eq_getElem?_getD, List.getElem?_eq_getElem (by omega)]
      rfl
    rw [if_neg hshort, if_neg hshort]
    refine (bind_eq (sliceTo_eq (by omega))).trans ?_
    cases Ax25.Address.decodeBase (buf.take 6) with
    | error e => rfl
    | ok base =>
      refine (bind_eq hoctet).trans ?_
      change _ = Except.ok (match Callsign.new base ((buf.getD 6 0 >>> 1) &&& 0x0F).toNat with
        | some call => (.ok ⟨call, buf.getD 6 0 &&& 0x80 != 0, buf.getD 6 0 &&& 0x01 != 0⟩ :
            Except Ax25Error Ax25.Address)
        | none => .error .badAddress)
      cases Callsign.new base ((buf.getD 6 0 >>> 1) &&& 0x0F).toNat <;> rfl

end Address

/-- The loop over the digipeaters, with the place where the next address would be. -/
def decodePath (buf : List UInt8) (offset : ℕ) (last : Bool) (digipeaters : List Ax25.Address) :
    Checked (Except Ax25Error (ℕ × List Ax25.Address)) :=
  if last then return .ok (offset, digipeaters)
  else if _h : maxDigipeaters ≤ digipeaters.length then return .error .tooManyDigipeaters
  else if buf.length < offset then return .error .truncated
  else do
    match ← Address.decode (buf.drop offset) with
    | .error e => return .error e
    | .ok digi =>
      let offset ← addUsize offset addressLen
      decodePath buf offset digi.last (digipeaters ++ [digi])
termination_by maxDigipeaters - digipeaters.length
decreasing_by
  rw [List.length_append, List.length_singleton]
  omega

/-- Where the loop stops, the remaining addresses end. -/
theorem decodePath_eq {room offset : ℕ} {last : Bool} {digipeaters : List Ax25.Address}
    (hroom : room + digipeaters.length = maxDigipeaters) (hoffset : offset ≤ 70 - 7 * room) :
    match Ax25Frame.decodePath room last (buf.drop offset) with
    | .error e => decodePath buf offset last digipeaters = .ok (.error e)
    | .ok (path, rest) => decodePath buf offset last digipeaters =
        .ok (.ok (offset + 7 * path.length, digipeaters ++ path)) ∧ path.length ≤ room ∧
          rest = buf.drop (offset + 7 * path.length) := by
  induction room generalizing offset last digipeaters with
  | zero =>
    cases last with
    | true =>
      refine ⟨?_, le_rfl, rfl⟩
      rw [decodePath, List.append_nil]
      rfl
    | false =>
      change decodePath buf offset false digipeaters = _
      rw [decodePath, if_neg Bool.false_ne_true, dif_pos (by omega)]
      rfl
  | succ room ih =>
    cases last with
    | true =>
      refine ⟨?_, Nat.zero_le _, rfl⟩
      rw [decodePath, List.append_nil]
      rfl
    | false =>
      have hmore : ¬ maxDigipeaters ≤ digipeaters.length := by omega
      have hloop : decodePath buf offset false digipeaters =
          if buf.length < offset then .ok (.error .truncated)
          else Address.decode (buf.drop offset) >>= fun
            | .error e => .ok (.error e)
            | .ok digi => addUsize offset addressLen >>= fun offset =>
              decodePath buf offset digi.last (digipeaters ++ [digi]) := by
        rw [decodePath, if_neg Bool.false_ne_true, dif_neg hmore]
        rfl
      have hpure : Ax25Frame.decodePath (room + 1) false (buf.drop offset) =
          (Ax25.Address.decode (buf.drop offset) >>= fun digi =>
            Ax25Frame.decodePath room digi.last (buf.drop (offset + 7)) >>= fun p =>
              .ok (digi :: p.1, p.2)) := by
        rw [Ax25Frame.decodePath, List.drop_drop]
        rfl
      rw [hloop, hpure]
      by_cases hout : buf.length < offset
      · have hnone : Ax25.Address.decode (buf.drop offset) = .error .truncated := by
          rw [Ax25.Address.decode, if_pos]
          rw [List.length_drop, addressLen]
          omega
        rw [hnone]
        exact if_pos hout
      rw [if_neg hout, Address.decode_eq]
      cases Ax25.Address.decode (buf.drop offset) with
      | error e => rfl
      | ok digi =>
        have hplace : addUsize offset addressLen = .ok (offset + 7) := by
          refine addUsize_eq ?_
          rw [addressLen, usizeLimit]
          omega
        have hnext : room + (digipeaters ++ [digi]).length = maxDigipeaters := by
          rw [List.length_append, List.length_singleton]
          omega
        have hmax : maxDigipeaters = 8 := rfl
        have hrest := @ih (offset + 7) digi.last (digipeaters ++ [digi]) hnext (by omega)
        dsimp only [bind, Except.bind]
        rw [hplace]
        dsimp only
        cases hpath : Ax25Frame.decodePath room digi.last (buf.drop (offset + 7)) with
        | error e =>
          rw [hpath] at hrest
          exact hrest
        | ok p =>
          rw [hpath] at hrest
          obtain ⟨hread, hfew, hbehind⟩ := hrest
          have hend : offset + 7 + 7 * p.1.length = offset + 7 * (digi :: p.1).length := by
            rw [List.length_cons]
            omega
          rw [hend] at hread hbehind
          rw [List.append_assoc] at hread
          exact ⟨hread, Nat.succ_le_succ hfew, hbehind⟩

namespace Ax25Frame

/-- What comes after the address field, from its place on. -/
def decodeRest (buf : List UInt8) (offset : ℕ) :
    Checked (Except Ax25Error (UInt8 × Option UInt8 × List UInt8)) := do
  match buf[offset]? with
  | none => return .error .truncated
  | some control =>
    let offset ← addUsize offset 1
    if Ax25Frame.carriesPid control then
      match buf[offset]? with
      | none => return .error .truncated
      | some pid =>
        let offset ← addUsize offset 1
        return .ok (control, some pid, ← sliceFrom buf offset)
    else return .ok (control, none, [])

theorem decodeRest_eq {offset : ℕ} (h : offset ≤ 70) :
    decodeRest buf offset = .ok (Ax25.Ax25Frame.decodeRest (buf.drop offset)) := by
  have hone : addUsize offset 1 = .ok (offset + 1) := addUsize_eq (by rw [usizeLimit]; omega)
  have htwo : addUsize (offset + 1) 1 = .ok (offset + 2) := addUsize_eq (by rw [usizeLimit]; omega)
  have hfirst : (buf.drop offset)[0]? = buf[offset]? := by rw [List.getElem?_drop, Nat.add_zero]
  have hsecond : (buf.drop offset)[1]? = buf[offset + 1]? := by rw [List.getElem?_drop]
  have hinfo : (buf.drop offset).drop 2 = buf.drop (offset + 2) := List.drop_drop
  unfold decodeRest
  cases hdrop : buf.drop offset with
  | nil =>
    rw [hdrop] at hfirst
    rw [← hfirst]
    rfl
  | cons control rest =>
    rw [hdrop] at hfirst hsecond hinfo
    rw [← hfirst]
    dsimp only [List.getElem?_cons_zero]
    rw [bind_eq hone, Ax25.Ax25Frame.decodeRest.eq_def]
    dsimp only
    by_cases hpid : Ax25Frame.carriesPid control = true
    · rw [if_pos hpid, if_pos hpid, ← hsecond]
      cases rest with
      | nil => rfl
      | cons pid info =>
        have hroom : offset + 2 ≤ buf.length := by
          have hlength := congrArg List.length hdrop
          rw [List.length_drop, List.length_cons, List.length_cons] at hlength
          omega
        dsimp only [List.getElem?_cons_succ, List.getElem?_cons_zero]
        rw [bind_eq htwo, bind_eq (sliceFrom_eq hroom), ← hinfo]
        rfl
    · rw [if_neg hpid, if_neg hpid]
      rfl

def decode (buf : List UInt8) : Checked (Except Ax25Error Ax25Frame) := do
  match ← Address.decode buf with
  | .error e => return .error e
  | .ok destination =>
    if destination.last then return .error .badAddress
    match ← Address.decode (← sliceFrom buf addressLen) with
    | .error e => return .error e
    | .ok source =>
      match ← decodePath buf (addressLen * 2) source.last [] with
      | .error e => return .error e
      | .ok (offset, digipeaters) =>
        match ← decodeRest buf offset with
        | .error e => return .error e
        | .ok (control, pid, info) =>
          return .ok ⟨destination.normal, source.normal, digipeaters.map Ax25.Address.normal, control, pid,
            info⟩

theorem decode_eq (buf : List UInt8) : decode buf = .ok (Ax25.Ax25Frame.decode buf) := by
  unfold decode Ax25.Ax25Frame.decode
  rw [Address.decode_eq]
  cases hdest : Ax25.Address.decode buf with
  | error e => rfl
  | ok destination =>
    have hlength : addressLen ≤ buf.length := by
      by_contra hshort
      rw [Ax25.Address.decode, if_pos (not_le.mp hshort)] at hdest
      cases hdest
    dsimp only [bind, Except.bind]
    by_cases hlast : destination.last = true
    · rw [if_pos hlast, if_pos hlast]
      rfl
    rw [if_neg hlast, if_neg hlast, sliceFrom_eq hlength]
    dsimp only [pure, Except.pure]
    rw [Address.decode_eq]
    cases Ax25.Address.decode (buf.drop addressLen) with
    | error e => rfl
    | ok source =>
      have hpath := @decodePath_eq buf 8 14 source.last [] rfl (by decide)
      change _ = Except.ok (Ax25.Ax25Frame.decodePath 8 source.last (buf.drop 14) >>= fun p =>
        Ax25.Ax25Frame.decodeRest p.2 >>= fun q =>
          Except.ok (⟨destination.normal, source.normal, p.1.map Ax25.Address.normal, q.1, q.2.1, q.2.2⟩ :
            Ax25.Ax25Frame))
      cases hread : Ax25.Ax25Frame.decodePath 8 source.last (buf.drop 14) with
      | error e =>
        rw [hread] at hpath
        dsimp only
        rw [show addressLen * 2 = 14 from rfl, hpath]
        rfl
      | ok p =>
        rw [hread] at hpath
        obtain ⟨hloop, hfew, hrest⟩ := hpath
        have hplace : 14 + 7 * p.1.length ≤ 70 := by omega
        dsimp only
        rw [show addressLen * 2 = 14 from rfl, hloop]
        dsimp only
        rw [decodeRest_eq hplace]
        dsimp only [bind, Except.bind]
        rw [hrest]
        cases Ax25.Ax25Frame.decodeRest (buf.drop (14 + 7 * p.1.length)) <;> rfl

end Ax25Frame

/-! ### AIRC -/

namespace AircFrame

def decode (buf : List UInt8) : Checked (Except AircError AircFrame) := do
  if buf.length < headerLen then return .error .truncated
  let magic ← slice buf 0 2
  if magic ≠ [0x41, 0x31] then return .error .notAirc
  let fragTotal ← index buf 7
  let fragIndex ← index buf 6
  if fragTotal = 0 ∨ fragTotal ≤ fragIndex then return .error .badFragment
  let flags ← index buf 3
  let payload ← sliceFrom buf headerLen
  if flags &&& Flags.piggyack ≠ 0 then
    if payload.length < 2 then return .error .truncated
    let piggybackSeq := fromBeBytes (← index payload 0) (← index payload 1)
    let payload ← sliceFrom payload 2
    match Kind.tryFrom (← index buf 2) with
    | .error e => return .error e
    | .ok kind =>
      let seq := fromBeBytes (← index buf 4) (← index buf 5)
      return .ok ⟨kind, flags, seq, fragIndex, fragTotal, payload, some piggybackSeq⟩
  else
    match Kind.tryFrom (← index buf 2) with
    | .error e => return .error e
    | .ok kind =>
      let seq := fromBeBytes (← index buf 4) (← index buf 5)
      return .ok ⟨kind, flags, seq, fragIndex, fragTotal, payload, none⟩

theorem decode_eq (buf : List UInt8) : decode buf = .ok (Airc.AircFrame.decode buf) := by
  unfold decode
  match buf with
  | [] | [_] | [_, _] | [_, _, _] | [_, _, _, _] | [_, _, _, _, _] | [_, _, _, _, _, _]
  | [_, _, _, _, _, _, _] => rfl
  | a :: one :: kind :: flags :: hi :: lo :: fragIndex :: total :: payload =>
    have hlong : ¬ (a :: one :: kind :: flags :: hi :: lo :: fragIndex :: total :: payload).length <
        headerLen := by
      rw [headerLen]
      simp only [List.length_cons]
      omega
    have hmagic : slice (a :: one :: kind :: flags :: hi :: lo :: fragIndex :: total :: payload) 0 2 =
        .ok [a, one] := slice_eq (Nat.zero_le 2) (by simp)
    have hrest : sliceFrom (a :: one :: kind :: flags :: hi :: lo :: fragIndex :: total :: payload)
        headerLen = .ok payload := sliceFrom_eq (not_lt.mp hlong)
    have hbad : [a, one] ≠ [0x41, 0x31] ↔ a ≠ 0x41 ∨ one ≠ 0x31 := by
      simp only [ne_eq, List.cons.injEq, and_true, not_and_or]
    rw [if_neg hlong, bind_eq hmagic, if_congr hbad rfl rfl, Airc.AircFrame.decode.eq_def]
    dsimp only
    by_cases hairc : a ≠ 0x41 ∨ one ≠ 0x31
    · rw [if_pos hairc, if_pos hairc]
      rfl
    rw [if_neg hairc, if_neg hairc]
    -- the octets of the header are where they are looked for
    change (if total = 0 ∨ total ≤ fragIndex then _ else sliceFrom _ headerLen >>= _) = _
    by_cases hfragment : total = 0 ∨ total ≤ fragIndex
    · rw [if_pos hfragment, if_pos hfragment]
      rfl
    rw [if_neg hfragment, if_neg hfragment, bind_eq hrest]
    by_cases hpiggy : flags &&& Flags.piggyack ≠ 0
    · rw [if_pos hpiggy, if_pos hpiggy]
      match payload with
      | [] | [_] => rfl
      | phi :: plo :: rest =>
        have hshort : ¬ (phi :: plo :: rest).length < 2 := by
          simp only [List.length_cons]
          omega
        have hdrain : sliceFrom (phi :: plo :: rest) 2 = .ok rest := sliceFrom_eq (not_lt.mp hshort)
        rw [if_neg hshort]
        change (sliceFrom (phi :: plo :: rest) 2 >>= _) = _
        rw [bind_eq hdrain]
        change (match Kind.tryFrom kind with | .error e => _ | .ok kind => _) = _
        cases Kind.tryFrom kind <;> rfl
    · rw [if_neg hpiggy, if_neg hpiggy]
      change (match Kind.tryFrom kind with | .error e => _ | .ok kind => _) = _
      cases Kind.tryFrom kind <;> rfl

end AircFrame

end CheckedFrames
