import Pyharmonics.Grading

/-! Which tuning fields the engine reads live, and which were frozen at import. -/
namespace Pyharmonics

open Series

variable {N : Numerics} {w v : Process} {ctx : ScoreContext} {c : Candidate} {level : String}
  {i : BuildInput} {df : Frame} {last : Row} {base t : TuningConstants}

/-- Two processes that differ in nothing the engine reads. -/
structure SameReads (N : Numerics) (w v : Process) : Prop where
  tuning : w.getTuning = v.getTuning
  filter : w.rejectionReason = v.rejectionReason
  trap : ∀ df lo hi b, quantTrapRisk df lo hi b w.tuning.quantTrapLookback =
    quantTrapRisk df lo hi b v.tuning.quantTrapLookback
  volume : ∀ df, volumeAuthenticity df w.tuning.volumeAuthenticityWindow =
    volumeAuthenticity df v.tuning.volumeAuthenticityWindow
  regime : ∀ df, quantRegime N w df w.tuning.quantRegimeWindow =
    quantRegime N v df v.tuning.quantRegimeWindow

/-! The functions that read the tuning in force and nothing else. -/

section Live

variable (h : w.getTuning = v.getTuning)
include h

theorem computeStop_live {atr : ℚ} {a : StopArgs} (hl : level ∈ stopLevels) :
    computeStop N w c atr level a = computeStop N v c atr level a := by
  have hmem : level ∈ requiredStopLossLevels := by
    simpa [stopLevels, requiredStopLossLevels] using hl
  simp only [computeStop, placeStop, stopBase, stopAnchor, h,
    if_pos (w.tuning.stopLevel_mem hmem), if_pos (v.tuning.stopLevel_mem hmem)]

theorem computeTargets_live {entry : ℚ} :
    computeTargets N w c entry = computeTargets N v c entry := by
  simp only [computeTargets, h]

theorem netRr_live {entry stop target : ℚ} :
    netRr N w entry stop target = netRr N v entry stop target := by
  simp only [netRr, h]

theorem rejectionReason_live {price atr : ℚ} {cts : Option (List ℤ)} :
    rejectionReason N w c price atr cts = rejectionReason N v c price atr cts := by
  have hstop : computeStop N w c atr = computeStop N v c atr :=
    computeStop_live h (by decide)
  simp only [rejectionReason, h, computeTargets_live h, hstop]

end Live

/-! The pipeline. -/

namespace SameReads

variable (h : SameReads N w v)
include h

theorem filterCandidates_eq {price atr : ℚ} {cts : Option (List ℤ)} (cs : List Candidate) :
    filterCandidates N w price atr cts cs = filterCandidates N v price atr cts cs := by
  induction cs with
  | nil => rfl
  | cons c cs ih =>
    simp only [filterCandidates, boundRejectionReason, ih, h.filter,
      rejectionReason_live h.tuning]

theorem prepareScoreContext_eq {interval : String} {d : Option Divergences} {b : Option ℚ} :
    prepareScoreContext N w df last interval d b = prepareScoreContext N v df last interval d b := by
  simp only [prepareScoreContext, computeAtr, computeRsi, htfTrend, perBarSharpe,
    volatilityMultiplier, prepareMomentum, h.tuning, h.volume, h.regime]

theorem scoreCandidate_eq : scoreCandidate N w ctx c level = scoreCandidate N v ctx c level := by
  by_cases hl : level ∈ stopLevels
  · simp only [scoreCandidate, ScoreContext.finalStop, adverseMomentumVeto, confluenceScore,
      confluenceFactors, patternBaseScore, h.tuning, h.trap, computeStop_live h.tuning hl,
      computeTargets_live h.tuning, netRr_live h.tuning]
  · simp only [scoreCandidate, require, if_neg hl, error_bind]

theorem scoreAll_eq (cs : List Candidate) :
    scoreAll N w ctx level cs = scoreAll N v ctx level cs := by
  induction cs with
  | nil => rfl
  | cons c cs ih => simp only [scoreAll, ih, h.scoreCandidate_eq]

theorem buildSignal_eq : buildSignal N w i = buildSignal N v i := by
  simp only [buildSignal, applyStability, h.tuning, h.prepareScoreContext_eq,
    h.filterCandidates_eq, h.scoreAll_eq]

end SameReads

/-! Import-time windows. -/

/-- Two windows that select the same rows, or both too few for the verifier's minimum. -/
def SameWindow (least a b : ℤ) : Prop := a = b ∨ (a < least ∧ b < least)

theorem quantTrapRisk_sameWindow {a b : ℤ} (ha : 0 ≤ a) (hb : 0 ≤ b) (h : SameWindow 15 a b)
    (df : Frame) (lo hi : ℚ) (bullish : Bool) :
    quantTrapRisk df lo hi bullish a = quantTrapRisk df lo hi bullish b := by
  rcases h with rfl | ⟨h1, h2⟩
  · rfl
  · have hla : (df.tail a).length < 15 := by
      rw [Frame.tail, length_tail ha]
      omega
    have hlb : (df.tail b).length < 15 := by
      rw [Frame.tail, length_tail hb]
      omega
    simp only [quantTrapRisk, if_pos hla, if_pos hlb]

theorem volumeAuthenticity_sameWindow {a b : ℤ} (ha : 0 ≤ a) (hb : 0 ≤ b)
    (h : SameWindow 10 a b) (df : Frame) : volumeAuthenticity df a = volumeAuthenticity df b := by
  rcases h with rfl | ⟨h1, h2⟩
  · rfl
  · have hla : (df.tail a).length < 10 := by
      rw [Frame.tail, length_tail ha]
      omega
    have hlb : (df.tail b).length < 10 := by
      rw [Frame.tail, length_tail hb]
      omega
    simp only [volumeAuthenticity, if_pos hla, if_pos hlb]

theorem quantRegime_sameWindow {a b : ℤ} (ha : 0 ≤ a) (hb : 0 ≤ b) (h : SameWindow 20 a b)
    (ht : w.getTuning = v.getTuning) (df : Frame) : quantRegime N w df a = quantRegime N v df b := by
  rcases h with rfl | ⟨h1, h2⟩
  · simp only [quantRegime, ht]
  · have hla : (df.tail a).length < 20 := by
      rw [Frame.tail, length_tail ha]
      omega
    have hlb : (df.tail b).length < 20 := by
      rw [Frame.tail, length_tail hb]
      omega
    simp only [quantRegime, if_pos hla, if_pos hlb]

end Pyharmonics
