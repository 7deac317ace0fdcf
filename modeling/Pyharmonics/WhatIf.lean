import Pyharmonics.Library.Waterfall

/-! The accounts of the position page: what a planned trade would drain, and how risky it is. -/
namespace Pyharmonics.Wallet

open Waterfall

/-- The accounts a balance is split over. -/
inductive Account
  | emergency | btc | mid | smallTradable | smallReserve
  deriving DecidableEq

structure PositionBalance where
  emergencyWu : ℚ
  btcWu : ℚ
  midWu : ℚ
  smallTradableWu : ℚ
  smallReserveWu : ℚ
  cutPositionWu : ℚ

/-- `balance[key]` -/
def PositionBalance.amount (balance : PositionBalance) : Account → ℚ
  | .emergency => balance.emergencyWu
  | .btc => balance.btcWu
  | .mid => balance.midWu
  | .smallTradable => balance.smallTradableWu
  | .smallReserve => balance.smallReserveWu

/-- A level of the ladder; `maxWu` is missing where it is infinite. -/
structure RiskLevel where
  level : ℕ
  label : String
  minWu : ℚ
  maxWu : Option ℚ
  trouble : String
  cooldown : String

def computeRiskLevels (balance : PositionBalance) : List RiskLevel :=
  let st := max 0 balance.smallTradableWu
  let sr := max 0 (balance.smallTradableWu + balance.smallReserveWu)
  let mid := max sr (balance.smallTradableWu + balance.smallReserveWu + balance.midWu)
  let btc := max mid
    (balance.smallTradableWu + balance.smallReserveWu + balance.midWu + balance.btcWu)
  [⟨0, "0 级", 0, some (st / 2), "无额外麻烦", "至少确认逻辑"⟩,
    ⟨1, "1 级", st / 2, some st, "消耗小账户可交易部分", "冷静 30 分钟"⟩,
    ⟨2, "2 级", st, some sr, "触及小账户备用金", "冷静 2 小时"⟩,
    ⟨3, "3 级", sr, some mid, "触及中账户", "冷静 24 小时"⟩,
    ⟨4, "4 级", mid, some btc, "触及 BTC 趋势仓", "冷静 1 周"⟩,
    ⟨5, "5 级", btc, none, "动用救命钱", "原则上禁止"⟩]

/-- `computeRiskLevel`, over the levels behind the first. -/
def chooseLevel (plannedTrade : ℚ) (chosen : RiskLevel) (levels : List RiskLevel) : RiskLevel :=
  levels.foldl (fun chosen lvl => if lvl.minWu ≤ plannedTrade then lvl else chosen) chosen

def computeRiskLevel (balance : PositionBalance) (plannedTrade : ℚ) : RiskLevel :=
  match computeRiskLevels balance with
  | first :: rest => chooseLevel plannedTrade first (first :: rest)
  | [] => ⟨0, "", 0, none, "", ""⟩

/-- The variables that `drain` works on. -/
structure Draining where
  toConsume : ℚ
  remaining : Account → ℚ
  consumed : Account → ℚ

def Draining.drain (s : Draining) (key : Account) : Draining :=
  if s.toConsume ≤ 0 then s
  else
    let take := min (s.remaining key) s.toConsume
    { toConsume := s.toConsume - take
      remaining := Function.update s.remaining key (s.remaining key - take)
      consumed := Function.update s.consumed key take }

structure WhatIfResult where
  tradeWu : ℚ
  consumed : Account → ℚ
  remaining : Account → ℚ
  remainingTotalWu : ℚ
  touchesEmergency : Bool

/-- The order in which the accounts are drained. -/
def priority : List Account := [.smallTradable, .smallReserve, .mid, .btc, .emergency]

def simulateWhatIf (balance : PositionBalance) (tradeWu : ℚ) : WhatIfResult :=
  let s := priority.foldl Draining.drain ⟨tradeWu, balance.amount, fun _ => 0⟩
  { tradeWu := tradeWu
    consumed := s.consumed
    remaining := s.remaining
    remainingTotalWu := s.remaining .emergency + s.remaining .btc + s.remaining .mid +
      s.remaining .smallTradable + s.remaining .smallReserve
    touchesEmergency := 0 < s.consumed .emergency }

/-- The balance that a trade leaves. -/
def PositionBalance.after (balance : PositionBalance) (r : WhatIfResult) : PositionBalance :=
  ⟨r.remaining .emergency, r.remaining .btc, r.remaining .mid, r.remaining .smallTradable,
    r.remaining .smallReserve, balance.cutPositionWu⟩

def PositionBalance.total (balance : PositionBalance) : ℚ := (priority.map balance.amount).sum

/-- No account is overdrawn. -/
def PositionBalance.Solvent (balance : PositionBalance) : Prop := ∀ key, 0 ≤ balance.amount key

variable {balance : PositionBalance} {s : Draining} {key : Account} {keys : List Account}
  {a b t : ℚ}

theorem mem_priority (key : Account) : key ∈ priority := by
  cases key <;> decide

theorem nodup_priority : priority.Nodup := by decide

/-- One account gives what its place in a waterfall gives; the others stay. -/
theorem drain_spec (hzero : s.consumed key = 0) :
    (s.drain key).toConsume = s.toConsume - taken (s.remaining key) s.toConsume ∧
    (s.drain key).remaining =
      Function.update s.remaining key (s.remaining key - taken (s.remaining key) s.toConsume) ∧
    (s.drain key).consumed =
      Function.update s.consumed key (taken (s.remaining key) s.toConsume) := by
  unfold Draining.drain taken
  by_cases h : s.toConsume ≤ 0
  · rw [if_pos h, if_pos h, sub_zero, sub_zero, Function.update_eq_self]
    exact ⟨rfl, rfl, by rw [← hzero, Function.update_eq_self]⟩
  · simp only [if_neg h, and_self]

/-- Draining accounts in order is a waterfall over their amounts. -/
theorem foldl_drain (hnodup : keys.Nodup) (hzero : ∀ k ∈ keys, s.consumed k = 0) :
    keys.map (keys.foldl Draining.drain s).consumed = drain s.toConsume (keys.map s.remaining) ∧
    keys.map (keys.foldl Draining.drain s).remaining = left s.toConsume (keys.map s.remaining) ∧
    ∀ k, k ∉ keys → (keys.foldl Draining.drain s).consumed k = s.consumed k ∧
      (keys.foldl Draining.drain s).remaining k = s.remaining k := by
  induction keys generalizing s with
  | nil => exact ⟨rfl, rfl, fun k _ => ⟨rfl, rfl⟩⟩
  | cons key keys ih =>
    obtain ⟨hkey, hnodup⟩ := List.nodup_cons.mp hnodup
    obtain ⟨htoConsume, hremaining, hconsumed⟩ := drain_spec (hzero key (by simp))
    have hother : ∀ k ∈ keys, k ≠ key := fun k hk => ne_of_mem_of_not_mem hk hkey
    have hzero' : ∀ k ∈ keys, (s.drain key).consumed k = 0 := fun k hk => by
      rw [hconsumed, Function.update_of_ne (hother k hk), hzero k (List.mem_cons_of_mem _ hk)]
    have hamounts : keys.map (s.drain key).remaining = keys.map s.remaining :=
      List.map_congr_left fun k hk => by rw [hremaining, Function.update_of_ne (hother k hk)]
    obtain ⟨hc, hr, hout⟩ := ih hnodup hzero'
    rw [hamounts, htoConsume] at hc hr
    obtain ⟨hckey, hrkey⟩ := hout key hkey
    rw [List.foldl_cons, List.map_cons, List.map_cons, List.map_cons, hckey, hrkey, hc, hr, hconsumed,
      hremaining, Function.update_self, Function.update_self]
    refine ⟨rfl, rfl, fun k hk => ?_⟩
    obtain ⟨hk, hk'⟩ := not_or.mp (mt List.mem_cons.mpr hk)
    obtain ⟨h1, h2⟩ := hout k hk'
    rw [h1, h2, hconsumed, hremaining, Function.update_of_ne hk, Function.update_of_ne hk]
    exact ⟨rfl, rfl⟩

/-- The trade drains the accounts as a waterfall in their priority. -/
theorem simulateWhatIf_waterfall (balance : PositionBalance) (t : ℚ) :
    priority.map (simulateWhatIf balance t).consumed = drain t (priority.map balance.amount) ∧
    priority.map (simulateWhatIf balance t).remaining = left t (priority.map balance.amount) := by
  obtain ⟨hc, hr, -⟩ := @foldl_drain ⟨t, balance.amount, fun _ => 0⟩ priority nodup_priority
    fun _ _ => rfl
  exact ⟨hc, hr⟩

@[simp] theorem amount_after {r : WhatIfResult} : (balance.after r).amount = r.remaining := by
  funext key
  cases key <;> rfl

/-- Functions with the same values in priority agree. -/
theorem eq_of_map_priority {f g : Account → ℚ} (h : priority.map f = priority.map g) : f = g :=
  funext fun key => List.map_inj_left.mp h key (mem_priority key)

theorem PositionBalance.Solvent.amounts (h : balance.Solvent) (keys : List Account) :
    ∀ x ∈ keys.map balance.amount, 0 ≤ x := by
  intro x hx
  obtain ⟨key, -, rfl⟩ := List.mem_map.mp hx
  exact h key

/-- An account at its place: what it gives, and what is left in front of it. -/
theorem simulateWhatIf_at {before after : List Account} (h : priority = before ++ key :: after)
    (balance : PositionBalance) (t : ℚ) :
    (simulateWhatIf balance t).consumed key =
      taken (balance.amount key) (t - (drain t (before.map balance.amount)).sum) ∧
    before.map (simulateWhatIf balance t).remaining = left t (before.map balance.amount) := by
  obtain ⟨hc, hr⟩ := simulateWhatIf_waterfall balance t
  rw [h, List.map_append, List.map_append, drain_append, List.map_cons, List.map_cons, drain] at hc
  rw [h, List.map_append, List.map_append, left_append] at hr
  refine ⟨?_, (List.append_inj hr (by simp)).1⟩
  exact (List.cons.inj (List.append_inj hc (by simp)).2).1

/-- Ten thousand units, as the default ratios split them. -/
def exampleBalance : PositionBalance := ⟨3000, 4000, 2500, 70, 430, 0⟩

theorem exampleBalance_solvent : exampleBalance.Solvent := by
  intro key
  cases key <;> norm_num [exampleBalance, PositionBalance.amount]

/-- What the accounts in front of the `k`-th hold. -/
def PositionBalance.before (balance : PositionBalance) (k : ℕ) : ℚ :=
  ((priority.take k).map balance.amount).sum

theorem before_eq (balance : PositionBalance) :
    balance.before 1 = balance.smallTradableWu ∧
    balance.before 2 = balance.smallTradableWu + balance.smallReserveWu ∧
    balance.before 3 = balance.smallTradableWu + balance.smallReserveWu + balance.midWu ∧
    balance.before 4 =
      balance.smallTradableWu + balance.smallReserveWu + balance.midWu + balance.btcWu := by
  simp [PositionBalance.before, priority, PositionBalance.amount, add_assoc]

theorem level_eq (h : balance.Solvent) (t : ℚ) : (computeRiskLevel balance t).level =
    if balance.before 4 ≤ t then 5 else if balance.before 3 ≤ t then 4
    else if balance.before 2 ≤ t then 3 else if balance.before 1 ≤ t then 2
    else if balance.smallTradableWu / 2 ≤ t then 1 else 0 := by
  have hst : 0 ≤ balance.smallTradableWu := h .smallTradable
  have hsr : 0 ≤ balance.smallReserveWu := h .smallReserve
  have hmid : 0 ≤ balance.midWu := h .mid
  have hbtc : 0 ≤ balance.btcWu := h .btc
  obtain ⟨h1, h2, h3, h4⟩ := before_eq balance
  rw [h1, h2, h3, h4]
  simp only [computeRiskLevel, computeRiskLevels, chooseLevel, List.foldl_cons, List.foldl_nil,
    max_eq_right hst, max_eq_right (add_nonneg hst hsr), max_eq_right (le_add_of_nonneg_right hmid),
    max_eq_right (le_add_of_nonneg_right hbtc)]
  split_ifs <;> rfl

/-- The level is chosen by what the accounts hold in front of the one it names. -/
theorem lt_level_iff (h : balance.Solvent) (t : ℚ) {k : ℕ} (hk : 1 ≤ k) (hk' : k ≤ 4) :
    k < (computeRiskLevel balance t).level ↔ balance.before k ≤ t := by
  have hsr : 0 ≤ balance.smallReserveWu := h .smallReserve
  have hmid : 0 ≤ balance.midWu := h .mid
  have hbtc : 0 ≤ balance.btcWu := h .btc
  obtain ⟨h1, h2, h3, h4⟩ := before_eq balance
  have h12 : balance.before 1 ≤ balance.before 2 := by linarith
  have h23 : balance.before 2 ≤ balance.before 3 := by linarith
  have h34 : balance.before 3 ≤ balance.before 4 := by linarith
  rw [level_eq h]
  interval_cases k
  all_goals
    split_ifs
    all_goals first
      | exact iff_of_true (by decide) (by linarith)
      | exact iff_of_false (by decide) (by linarith)

/-- The accounts from the `k`-th on are touched when the trade exceeds what is in front of them. -/
theorem touched_iff (h : balance.Solvent) (ht : 0 ≤ t) (htotal : t ≤ balance.total) (k : ℕ) :
    (∃ key ∈ priority.drop k, 0 < (simulateWhatIf balance t).consumed key) ↔ balance.before k < t := by
  have hsplit : priority.map balance.amount =
      (priority.take k).map balance.amount ++ (priority.drop k).map balance.amount := by
    rw [← List.map_append, List.take_append_drop]
  have hc := (simulateWhatIf_waterfall balance t).1
  rw [hsplit, drain_append, ← List.take_append_drop k (priority.map (simulateWhatIf balance t).consumed),
    ← List.map_take, ← List.map_drop] at hc
  have hdeep := (List.append_inj hc (by simp)).2
  have hnonneg : ∀ x ∈ (priority.drop k).map (simulateWhatIf balance t).consumed, 0 ≤ x := by
    rw [hdeep]
    exact drain_nonneg (h.amounts _)
  have hsum : (∃ key ∈ priority.drop k, 0 < (simulateWhatIf balance t).consumed key) ↔
      0 < ((priority.drop k).map (simulateWhatIf balance t).consumed).sum := by
    constructor
    · rintro ⟨key, hkey, hpos⟩
      exact hpos.trans_le (List.single_le_sum hnonneg _ (List.mem_map_of_mem hkey))
    · intro hpos
      by_contra hnone
      push Not at hnone
      refine hpos.ne' (List.sum_eq_zero fun x hx => le_antisymm ?_ (hnonneg x hx))
      obtain ⟨key, hkey, rfl⟩ := List.mem_map.mp hx
      exact hnone key hkey
  rw [hsum, hdeep, sum_drain_pos_iff (h.amounts _) (h.amounts _) ht]
  refine and_iff_left_of_imp fun hlt => ?_
  rw [PositionBalance.total, hsplit, List.sum_append] at htotal
  exact pos_of_lt_add_right (hlt.trans_le htotal)

end Pyharmonics.Wallet
