import EspAdblocker.Dns.Proxy
import EspAdblocker.Lib.Buckets

/-!
# The count of the last 24 hours

`record_blocked_for_rolling_window` and `blocked_last_24h` count in 24 reused
buckets. They are the buckets of the library, the counters modulo 2^32
(`Represents`), so on a clock that never goes back every read returns the number
of blocks of the last 24 clock hours.
-/

namespace EspAdblocker.Dns

open EspAdblocker.Lib

/-- `blocked_last_24h`. -/
def blockedLast24h (history : BlockedHistory) (unixTime : Nat) : BitVec 32 :=
  let currentHour : Int := (unixTime / 3600 : Nat)
  (List.range blockedHistoryHours).foldl (fun total i =>
    if history.hourId.getD i 0 > currentHour - blockedHistoryHours then total + history.hourCount.getD i 0#32 else total) 0#32

/-- A call of one of the two functions, with what `time(NULL)` returns to it. -/
inductive HistoryCall where
  | record (unixTime : Nat)
  | read (unixTime : Nat)
  deriving DecidableEq, Repr

namespace HistoryCall

/-- What `time(NULL)` returns. -/
def time : HistoryCall → Nat
  | record unixTime | read unixTime => unixTime

/-- The buckets after the call. -/
def apply (history : BlockedHistory) : HistoryCall → BlockedHistory
  | record unixTime => recordBlocked history unixTime
  | read _ => history

/-- The clock hour of a recorded block. -/
def recorded : HistoryCall → Option Nat
  | record unixTime => some (unixTime / 3600)
  | read _ => none

end HistoryCall

/-- The clock hours of the blocks recorded by some calls, in order. -/
def recordedHours (calls : List HistoryCall) : List Nat := calls.filterMap HistoryCall.recorded

/-- The hour is one of the last 24. -/
def WithinDay (currentHour hour : Nat) : Prop := (currentHour : Int) - blockedHistoryHours < hour ∧ hour ≤ currentHour

instance (currentHour hour : Nat) : Decidable (WithinDay currentHour hour) :=
  inferInstanceAs (Decidable (_ ∧ _))

/-- The arrays are buckets with counters modulo 2^32. -/
structure Represents (history : BlockedHistory) (b : Buckets) : Prop where
  ids : history.hourId.length = blockedHistoryHours
  counts : history.hourCount.length = blockedHistoryHours
  tick : ∀ i < blockedHistoryHours, history.hourId.getD i 0 = b.tick i
  count : ∀ i < blockedHistoryHours, history.hourCount.getD i 0#32 = BitVec.ofNat 32 (b.count i)

theorem represents_empty : Represents {} .empty where
  ids := rfl
  counts := rfl
  tick i small := by simp [Buckets.empty, small]
  count i small := by simp [Buckets.empty, small]

section

variable {history : BlockedHistory} {b : Buckets}

theorem getD_set_self {α : Type} {l : List α} {i : Nat} (inside : i < l.length) (v d : α) : (l.set i v).getD i d = v := by
  rw [List.getD_eq_getElem?_getD, List.getElem?_set_self inside, Option.getD_some]

theorem getD_set_of_ne {α : Type} (l : List α) {i j : Nat} (other : i ≠ j) (v d : α) : (l.set i v).getD j d = l.getD j d := by
  rw [List.getD_eq_getElem?_getD, List.getElem?_set_ne other, List.getD_eq_getElem?_getD]

/-- `record_blocked_for_rolling_window` counts an event of the current hour. -/
theorem Represents.record (h : Represents history b) (unixTime : Nat) :
    Represents (recordBlocked history unixTime) (b.record blockedHistoryHours (unixTime / 3600)) := by
  have small : unixTime / 3600 % blockedHistoryHours < blockedHistoryHours := Nat.mod_lt _ (by decide)
  have hereId : unixTime / 3600 % blockedHistoryHours < history.hourId.length := by rwa [h.ids]
  have hereCount : unixTime / 3600 % blockedHistoryHours < history.hourCount.length := by rwa [h.counts]
  have sameTick := h.tick _ small
  have sameCount := h.count _ small
  unfold recordBlocked
  dsimp only
  by_cases same : b.tick (unixTime / 3600 % blockedHistoryHours) = unixTime / 3600
  · rw [if_neg (by rw [sameTick, same]; exact not_not.mpr rfl)]
    constructor
    · exact h.ids
    · rw [List.length_set]
      exact h.counts
    · intro i inside
      by_cases here : i = unixTime / 3600 % blockedHistoryHours
      · rw [here, sameTick, same, Buckets.tick_record_self]
      · rw [h.tick i inside, Buckets.tick_record_of_ne here]
    · intro i inside
      by_cases here : i = unixTime / 3600 % blockedHistoryHours
      · rw [here, getD_set_self hereCount, sameCount, Buckets.count_record_self, if_pos same, BitVec.ofNat_add]
      · rw [getD_set_of_ne _ (Ne.symm here), h.count i inside, Buckets.count_record_of_ne here]
  · rw [if_pos (by rw [sameTick]; exact fun eq => same (Int.ofNat.inj eq))]
    constructor
    · rw [List.length_set]
      exact h.ids
    · rw [List.length_set, List.length_set]
      exact h.counts
    · intro i inside
      by_cases here : i = unixTime / 3600 % blockedHistoryHours
      · rw [here, getD_set_self hereId, Buckets.tick_record_self]
      · rw [getD_set_of_ne _ (Ne.symm here), h.tick i inside, Buckets.tick_record_of_ne here]
    · intro i inside
      by_cases here : i = unixTime / 3600 % blockedHistoryHours
      · rw [here, getD_set_self (by rwa [List.length_set]), getD_set_self hereCount, Buckets.count_record_self, if_neg same,
          BitVec.zero_add]
      · rw [getD_set_of_ne _ (Ne.symm here), getD_set_of_ne _ (Ne.symm here), h.count i inside,
          Buckets.count_record_of_ne here]

/-- A 32-bit accumulator over some of the first `n` values. -/
theorem foldl_range_ofNat (c : Nat → Prop) [DecidablePred c] (f : Nat → Nat) (n : Nat) :
    (List.range n).foldl (fun total i => if c i then total + BitVec.ofNat 32 (f i) else total) 0#32 =
      BitVec.ofNat 32 (∑ i ∈ Finset.range n, if c i then f i else 0) := by
  induction n with
  | zero => rfl
  | succ n ih =>
    rw [List.range_succ, List.foldl_append, ih, Finset.sum_range_succ, List.foldl_cons, List.foldl_nil, BitVec.ofNat_add]
    split
    · rfl
    · rw [BitVec.add_zero]

/-- `blocked_last_24h` adds up the recent buckets. -/
theorem Represents.read (h : Represents history b) (unixTime : Nat) :
    blockedLast24h history unixTime = BitVec.ofNat 32 (b.total blockedHistoryHours (unixTime / 3600)) := by
  rw [Buckets.total, ← foldl_range_ofNat, blockedLast24h]
  apply List.foldl_ext
  intro total i member
  have inside := List.mem_range.mp member
  rw [h.tick i inside, h.count i inside]
  apply if_congr _ rfl rfl
  omega

end

/-- On a clock that never goes back, the arrays after some calls are buckets that track the recorded hours. -/
theorem history_tracks {calls : List HistoryCall} (ordered : (calls.map HistoryCall.time).Pairwise (· ≤ ·)) :
    ∃ b, Represents (calls.foldl HistoryCall.apply {}) b ∧ Buckets.Tracks blockedHistoryHours b (recordedHours calls) := by
  induction calls using List.reverseRecOn with
  | nil => exact ⟨.empty, represents_empty, Buckets.tracks_empty⟩
  | append_singleton calls call ih =>
    rw [List.map_append, List.pairwise_append] at ordered
    obtain ⟨before, -, last⟩ := ordered
    obtain ⟨b, represents, tracks⟩ := ih before
    rw [List.foldl_append, List.foldl_cons, List.foldl_nil, recordedHours, List.filterMap_append]
    cases call with
    | record unixTime =>
      refine ⟨_, represents.record unixTime, tracks.record fun hour member => ?_⟩
      obtain ⟨earlier, listed, recorded⟩ := List.mem_filterMap.mp member
      have bound := last _ (List.mem_map.mpr ⟨earlier, listed, rfl⟩) unixTime (List.mem_singleton_self _)
      cases earlier with
      | record time =>
        obtain rfl := Option.some.inj recorded
        exact Nat.div_le_div_right bound
      | read time => cases recorded
    | read unixTime =>
      refine ⟨b, represents, ?_⟩
      rwa [show [HistoryCall.read unixTime].filterMap HistoryCall.recorded = [] from rfl, List.append_nil]

/-- **Every read returns, modulo 2^32, the number of blocks of the last 24 clock
hours**, for every sequence of calls on a clock that never goes back. -/
theorem blocked_last_24h_exact {calls before after : List HistoryCall} {unixTime : Nat}
    (ordered : (calls.map HistoryCall.time).Pairwise (· ≤ ·)) (reads : calls = before ++ .read unixTime :: after) :
    blockedLast24h (before.foldl HistoryCall.apply {}) unixTime =
      BitVec.ofNat 32 ((recordedHours before).countP fun hour => WithinDay (unixTime / 3600) hour) := by
  rw [reads, List.map_append, List.map_cons, List.pairwise_append] at ordered
  obtain ⟨prior, -, last⟩ := ordered
  obtain ⟨b, represents, tracks⟩ := history_tracks prior
  have past : ∀ hour ∈ recordedHours before, hour ≤ unixTime / 3600 := by
    intro hour member
    obtain ⟨earlier, listed, recorded⟩ := List.mem_filterMap.mp member
    have bound := last _ (List.mem_map.mpr ⟨earlier, listed, rfl⟩) unixTime (List.mem_cons_self ..)
    cases earlier with
    | record time =>
      obtain rfl := Option.some.inj recorded
      exact Nat.div_le_div_right bound
    | read time => cases recorded
  rw [represents.read, tracks.total_eq (by decide) past]
  congr 1
  apply List.countP_congr
  intro hour _
  rw [decide_eq_true_iff, decide_eq_true_iff]
  unfold WithinDay blockedHistoryHours
  omega

/-- Blocks in hours 0, 1, 2 and 25. In hour 25 the bucket of hour 1 is reused and that of hour 0 is too old. -/
theorem reused_bucket_read :
    blockedLast24h ([.record 0, .record 3600, .record 7200, .record 90000].foldl HistoryCall.apply {}) 90000 = 2#32 := by
  have ordered : (([.record 0, .record 3600, .record 7200, .record 90000] ++ .read 90000 :: [] : List HistoryCall).map
      HistoryCall.time).Pairwise (· ≤ ·) := by decide
  rw [blocked_last_24h_exact ordered rfl]
  decide

end EspAdblocker.Dns
