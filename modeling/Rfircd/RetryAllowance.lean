import Mathlib.Data.Nat.Choose.Basic
import Rfircd.SessionSteps

/-! How many frames a message in flight may still send, whatever is acknowledged. -/
namespace RetryAllowance

open Basics Airc AircSession

/-! ### What is open -/

/-- Setting marks leaves fewer open, unless they were all set. -/
theorem count_marked (l : List Bool) (set : ℕ → Bool) :
    (l.mapIdx fun i flag => flag || set i).count false ≤ l.count false ∧
    ((l.mapIdx fun i flag => flag || set i) ≠ l →
      (l.mapIdx fun i flag => flag || set i).count false < l.count false) := by
  induction l generalizing set with
  | nil => exact ⟨le_rfl, fun hne => absurd rfl hne⟩
  | cons flag l ih =>
    obtain ⟨hle, hlt⟩ := ih fun i => set (i + 1)
    rw [List.mapIdx_cons]
    cases flag with
    | true =>
      refine ⟨by simpa using hle, fun hne => ?_⟩
      have hrest : (l.mapIdx fun i flag => flag || set (i + 1)) ≠ l := by simpa using hne
      simpa using hlt hrest
    | false =>
      cases hset : set 0 with
      | true =>
        simp only [Bool.or_true, List.count_cons_self, List.count_cons_of_ne (Ne.symm Bool.false_ne_true)]
        omega
      | false =>
        simp only [Bool.or_false, List.count_cons_self]
        refine ⟨by omega, fun hne => ?_⟩
        have hrest : (l.mapIdx fun i flag => flag || set (i + 1)) ≠ l :=
          fun h => hne (congrArg (false :: ·) h)
        have := hlt hrest
        omega

theorem missing_length {pd : Pending} (h : pd.acked.length = pd.frames.length) :
    pd.missing.length = pd.acked.count false := by
  have hmarks : (List.range pd.frames.length).map (fun i => pd.acked[i]?.getD false) = pd.acked := by
    apply List.ext_getElem
    · rw [List.length_map, List.length_range, h]
    · intro i _ hi
      simp [List.getElem?_eq_getElem hi]
  have hindices : pd.frames.zipIdx.map Prod.snd = List.range pd.frames.length := by
    rw [List.zipIdx_map_snd, List.range_eq_range']
  rw [Pending.missing, List.length_map, ← List.countP_eq_length_filter]
  calc pd.frames.zipIdx.countP (fun e => !(pd.acked[e.2]?.getD false))
      = (pd.frames.zipIdx.map Prod.snd).countP (fun i => !(pd.acked[i]?.getD false)) := by
        rw [List.countP_map]
        rfl
    _ = ((List.range pd.frames.length).map fun i => pd.acked[i]?.getD false).countP (!·) := by
        rw [hindices, List.countP_map]
        rfl
    _ = pd.acked.count false := by
        rw [hmarks, List.count]
        exact List.countP_congr fun flag _ => by cases flag <;> simp

/-- What a bitmap reports anew is not sent again. -/
theorem missing_mark_lt {pd : Pending} (h : pd.acked.length = pd.frames.length) {bits : List UInt8}
    (hnew : (pd.mark bits).acked ≠ pd.acked) :
    (pd.mark bits).missing.length < pd.missing.length := by
  have hlen : (pd.mark bits).acked.length = (pd.mark bits).frames.length :=
    (List.length_mapIdx).trans h
  rw [missing_length hlen, missing_length h]
  exact (count_marked pd.acked (bitSet bits)).2 hnew

/-! ### The allowance -/

/-- `h` frames sent in every round of tries, then one less, down to a single one. -/
def rounds (maxRetries h : ℕ) : ℕ := (1 + maxRetries) * (h * (h + 1) / 2)

/-- The open frames are sent once more for each try that is left; a bitmap that reports one of them
starts a new round with one less. -/
def allowance (maxRetries : ℕ) (pd : Pending) : ℕ :=
  (maxRetries - pd.attempts) * pd.missing.length + rounds maxRetries (pd.missing.length - 1)

theorem rounds_succ (maxRetries h : ℕ) :
    rounds maxRetries (h + 1) = rounds maxRetries h + (1 + maxRetries) * (h + 1) := by
  have htriangle := Nat.triangle_succ (h + 1)
  rw [Nat.add_sub_cancel, Nat.add_sub_cancel] at htriangle
  rw [rounds, rounds, Nat.mul_comm (h + 1) (h + 1 + 1), htriangle, Nat.mul_comm (h + 1) h, Nat.mul_add]

theorem rounds_mono (maxRetries : ℕ) {h h' : ℕ} (hle : h ≤ h') :
    rounds maxRetries h ≤ rounds maxRetries h' := by
  apply Nat.mul_le_mul_left
  exact Nat.div_le_div_right (Nat.mul_le_mul hle (Nat.succ_le_succ hle))

/-- All open frames go out, and a round of tries begins. -/
theorem round_begins (maxRetries h : ℕ) :
    h + (maxRetries * h + rounds maxRetries (h - 1)) = rounds maxRetries h := by
  cases h with
  | zero => rfl
  | succ h =>
    rw [rounds_succ, Nat.add_sub_cancel, Nat.add_mul, Nat.one_mul]
    omega

theorem rounds_eq (maxRetries n : ℕ) : rounds maxRetries n = (1 + maxRetries) * n * (n + 1) / 2 := by
  rw [rounds, Nat.mul_assoc, Nat.mul_div_assoc _ (Nat.even_mul_succ_self n).two_dvd]

/-- A message that has just gone out. -/
def fresh (frames : List AircFrame) : Pending := ⟨frames, frames.map fun _ => false, 0, none⟩

theorem allowance_fresh (maxRetries : ℕ) (frames : List AircFrame) :
    frames.length + allowance maxRetries (fresh frames) =
      rounds maxRetries frames.length := by
  have hopen : (fresh frames).missing.length = frames.length := by
    rw [missing_length (List.length_map _), fresh, List.map_const', List.count_replicate_self]
  rw [allowance, hopen]
  exact round_begins maxRetries frames.length

theorem allowance_mark (maxRetries : ℕ) {pd : Pending} (h : pd.acked.length = pd.frames.length)
    {bits : List UInt8} (hnew : (pd.mark bits).acked ≠ pd.acked) :
    let repaired := { pd.mark bits with attempts := 0, nextRetry := none }
    repaired.missing.length + allowance maxRetries repaired ≤
      allowance maxRetries pd := by
  intro repaired
  have hlt : repaired.missing.length < pd.missing.length := missing_mark_lt h hnew
  calc repaired.missing.length + allowance maxRetries repaired
      = rounds maxRetries repaired.missing.length := round_begins maxRetries _
    _ ≤ rounds maxRetries (pd.missing.length - 1) := rounds_mono maxRetries (by omega)
    _ ≤ allowance maxRetries pd := Nat.le_add_left _ _

theorem allowance_retry {cfg : SessionConfig} {pd : Pending} (now : ℕ)
    (h : pd.attempts < cfg.maxRetries) :
    pd.missing.length + allowance cfg.maxRetries (retryPending cfg pd now).1 =
      allowance cfg.maxRetries pd := by
  have hopen : (retryPending cfg pd now).1.missing = pd.missing := rfl
  have htries : cfg.maxRetries - pd.attempts = cfg.maxRetries - (pd.attempts + 1) + 1 := by omega
  rw [allowance, hopen, allowance, htries, Nat.add_mul, Nat.one_mul]
  change _ + ((cfg.maxRetries - (pd.attempts + 1)) * _ + _) = _
  omega

end RetryAllowance
