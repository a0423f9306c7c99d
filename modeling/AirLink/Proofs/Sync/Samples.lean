/-
  The sums of a sample window, and when they overflow.

  * `Window.Holds` says what a window keeps of the samples since it was empty: the
    latest of them in turn, starting at the oldest, with their exact sums.
  * Another sample keeps this, unless the sum of the squares would leave its 64 bits
    (`Window.Holds.add_eq`).  The sum of the samples never does, as it is at most the
    sum of the squares.
  * So a log of clock errors that is fed any errors, cleared and reset takes all of
    them if and only if the squares of the latest four since a clear always fit
    (`ErrorLog.sums_exact`).
  * Two errors of the greatest magnitude do not (`ErrorLog.not_sums_exact`).
-/
import Mathlib.Algebra.Group.Nat.Defs
import Mathlib.Algebra.Ring.Int.Defs
import Mathlib.Data.List.DropRight
import Mathlib.Data.List.Rotate
import AirLink.Sync.ErrorLog

namespace AirLink

/-! ## Sums -/

/-- The sum of samples. -/
def total (samples : List Int32) : Int := (samples.map Int32.toInt).sum

/-- The sum of the squares of samples. -/
def squares (samples : List Int32) : Int := (samples.map fun v => v.toInt * v.toInt).sum

variable {l : List Int32} {v : Int32}

@[simp] theorem total_nil : total [] = 0 := rfl

@[simp] theorem squares_nil : squares [] = 0 := rfl

@[simp] theorem total_cons (v : Int32) (l : List Int32) : total (v :: l) = v.toInt + total l := rfl

@[simp] theorem squares_cons (v : Int32) (l : List Int32) :
    squares (v :: l) = v.toInt * v.toInt + squares l := rfl

theorem total_concat (l : List Int32) (v : Int32) : total (l ++ [v]) = total l + v.toInt := by
  simp [total]

theorem squares_concat (l : List Int32) (v : Int32) :
    squares (l ++ [v]) = squares l + v.toInt * v.toInt := by
  simp [squares]

theorem natAbs_le_mul_self (n : Int) : (n.natAbs : Int) ≤ n * n := by
  rw [← Int.natAbs_mul_self' n]
  exact Int.ofNat_le.2 (Nat.le_mul_self _)

theorem natAbs_total_le (l : List Int32) : ((total l).natAbs : Int) ≤ squares l := by
  induction l with
  | nil => exact Int.le_refl 0
  | cons v rest ih =>
    have hv := natAbs_le_mul_self v.toInt
    rw [total_cons, squares_cons]
    omega

theorem total_bounds {low high : Int} (h : ∀ v ∈ l, low ≤ v.toInt ∧ v.toInt ≤ high) :
    l.length * low ≤ total l ∧ total l ≤ l.length * high := by
  induction l with
  | nil => simp
  | cons v rest ih =>
    obtain ⟨hlow, hhigh⟩ := ih fun u hu => h u (.tail _ hu)
    obtain ⟨hlow', hhigh'⟩ := h v (.head _)
    rw [total_cons, List.length_cons, Int.natCast_succ, Int.add_mul, Int.add_mul, Int.one_mul,
      Int.one_mul]
    omega

theorem squares_le {m : Nat} (h : ∀ v ∈ l, v.toInt.natAbs ≤ m) :
    squares l ≤ (l.length * (m * m) : Nat) := by
  induction l with
  | nil => simp
  | cons v rest ih =>
    have hrest := ih fun u hu => h u (.tail _ hu)
    have hv := Nat.mul_le_mul (h v (.head _)) (h v (.head _))
    rw [squares_cons, List.length_cons, Nat.succ_mul, ← Int.natAbs_mul_self' v.toInt]
    omega

theorem length_rtake (l : List Int32) (n : Nat) : (l.rtake n).length = min l.length n := by
  rw [List.rtake, List.length_drop]
  omega

/-- If as many squares of a magnitude as there are samples fit, those of samples up to it
    do. -/
theorem squares_rtake_lt {n magnitude : Nat} (hfits : n * magnitude ^ 2 < 2 ^ 63)
    (h : ∀ v ∈ l, v.toInt.natAbs ≤ magnitude) : squares (l.rtake n) < 2 ^ 63 := by
  have hle : squares (l.rtake n) ≤ ((l.rtake n).length * (magnitude * magnitude) : Nat) :=
    squares_le fun v hv => h v (List.mem_of_mem_drop hv)
  have hlength : (l.rtake n).length ≤ n := by
    rw [length_rtake]
    exact Nat.min_le_right ..
  have hmul := Nat.mul_le_mul_right (magnitude * magnitude) hlength
  rw [Nat.pow_two] at hfits
  omega

theorem toInt_bounds (v : Int32) : -2 ^ 31 ≤ v.toInt ∧ v.toInt < 2 ^ 31 :=
  ⟨v.le_toInt, v.toInt_lt⟩

/-! ## The window -/

theorem checked64_eq_ok {n : Int} (hlow : -2 ^ 63 ≤ n) (hhigh : n < 2 ^ 63) :
    checked64 n = .ok n :=
  if_pos ⟨hlow, hhigh⟩

theorem checked64_eq_error {n : Int} {fault : Fault} (h : checked64 n = .error fault) :
    fault = .sumOverflow := by
  unfold checked64 at h
  split at h
  · cases h
  · cases h
    rfl

theorem sums_eq_error {α : Type} {sum squareSum : Int} {f : Int → Int → α} {fault : Fault}
    (h : (do return f (← checked64 sum) (← checked64 squareSum)) = .error fault) :
    fault = .sumOverflow := by
  rcases bind_eq_error.1 h with hsum | ⟨_, -, h⟩
  · exact checked64_eq_error hsum
  · rcases bind_eq_error.1 h with hsquares | ⟨_, -, h⟩
    · exact checked64_eq_error hsquares
    · cases h

namespace Window

variable {capacity : Nat} {w : Window capacity}

/-- The window lists samples in turn, starting at the oldest one. -/
structure Lists (w : Window capacity) (l : List Int32) : Prop where
  rotate_eq : w.samples.rotate w.next = l
  next_lt : w.next < capacity
  next_eq_zero : w.samples.length < capacity → w.next = 0

/-- The sums of the window are those of the samples. -/
structure Sums (w : Window capacity) (l : List Int32) : Prop where
  sum_eq : w.sum = total l
  squareSum_eq : w.squareSum = squares l

/-- Of the samples `l` the window holds the latest. -/
structure Holds (w : Window capacity) (l : List Int32) : Prop where
  lists : w.Lists (l.rtake capacity)
  sums : w.Sums (l.rtake capacity)

theorem holds_empty (h : 0 < capacity) : (empty : Window capacity).Holds [] where
  lists := ⟨by simp [empty], h, fun _ => rfl⟩
  sums := ⟨by simp [empty], by simp [empty]⟩

/-! ### The sums -/

/-- What the sums become with another sample. -/
theorem Sums.count_eq (h : w.Sums l) (v : Int32) :
    w.count v =
      if squares (l ++ [v]) < 2 ^ 63 then
        .ok { w with sum := total (l ++ [v]), squareSum := squares (l ++ [v]) }
      else .error .sumOverflow := by
  have hle := natAbs_total_le (l ++ [v])
  have hsum : w.sum + v.toInt = total (l ++ [v]) := by rw [h.sum_eq, total_concat]
  have hsquares : w.squareSum + v.toInt * v.toInt = squares (l ++ [v]) := by
    rw [h.squareSum_eq, squares_concat]
  unfold count
  rw [hsum, hsquares]
  split
  · next hfits =>
    rw [checked64_eq_ok (by omega) (by omega), checked64_eq_ok (by omega) hfits]
    rfl
  · next hover =>
    -- whichever of the sums is checked first, the fault is the same
    have hfault : checked64 (squares (l ++ [v])) = .error .sumOverflow :=
      if_neg fun hin => hover hin.2
    rw [hfault]
    unfold checked64
    split
    · rfl
    · rfl

/-- Without a sample that they count the sums are in range. -/
theorem Sums.forget_eq (h : w.Sums (v :: l)) (hfits : squares (v :: l) < 2 ^ 63) :
    w.forget v = .ok { w with sum := total l, squareSum := squares l } := by
  have hle := natAbs_total_le l
  have hsum : w.sum - v.toInt = total l := by
    rw [h.sum_eq, total_cons]
    omega
  have hsquares : w.squareSum - v.toInt * v.toInt = squares l := by
    rw [h.squareSum_eq, squares_cons]
    omega
  have hless : squares l ≤ squares (v :: l) := by
    rw [squares_cons]
    have := natAbs_le_mul_self v.toInt
    omega
  rw [forget, hsum, hsquares, checked64_eq_ok (by omega) (by omega),
    checked64_eq_ok (by omega) (by omega)]
  rfl

theorem Sums.place (h : w.Sums l) (v : Int32) : (w.place v).Sums l := by
  unfold Window.place
  split
  · exact ⟨h.sum_eq, h.squareSum_eq⟩
  · exact ⟨h.sum_eq, h.squareSum_eq⟩

/-! ### Faults -/

/-- All that can go wrong with a sample is that a sum overflows. -/
theorem add_eq_error {fault : Fault} (h : w.add v = .error fault) : fault = .sumOverflow := by
  unfold add at h
  split at h
  · rcases bind_eq_error.1 h with hforget | ⟨_, -, hcount⟩
    · exact sums_eq_error hforget
    · exact sums_eq_error hcount
  · exact sums_eq_error h

/-! ### The samples -/

theorem Lists.length_eq (h : w.Lists (l.rtake capacity)) :
    w.samples.length = min l.length capacity := by
  rw [← List.length_rotate w.samples w.next, h.rotate_eq, length_rtake]

/-- What follows the oldest sample, with a new one in its place. -/
theorem rotate_set {i : Nat} (h : i < l.length) (v : Int32) :
    (l.set i v).rotate (i + 1) = (l.rotate i).tail ++ [v] := by
  have hlength : (l.take i).length = i := List.length_take_of_le (Nat.le_of_lt h)
  have hset : (l.set i v).rotate (i + 1) = l.drop (i + 1) ++ (l.take i ++ [v]) := by
    have hsplit : l.set i v = (l.take i ++ [v]) ++ l.drop (i + 1) := by
      rw [List.set_eq_take_append_cons_drop, if_pos h, List.append_assoc, List.singleton_append]
    have hlength' : (l.take i ++ [v]).length = i + 1 := by
      rw [List.length_append, hlength, List.length_singleton]
    rw [hsplit, ← hlength', List.rotate_append_length_eq, hlength']
  rw [hset, List.rotate_eq_drop_append_take (Nat.le_of_lt h), List.drop_eq_getElem_cons h,
    List.cons_append, List.tail_cons, List.append_assoc]

/-- A full window gives up the oldest sample. -/
theorem Lists.evicted?_eq {old : Int32} (h : w.Lists (old :: l))
    (hfull : w.samples.length = capacity) : w.evicted? = some old := by
  have hlt : w.next < w.samples.length := Nat.lt_of_lt_of_eq h.next_lt hfull.symm
  rw [evicted?, if_neg (by omega), ← List.head?_rotate hlt, h.rotate_eq, List.head?_cons]

/-- A new sample follows the others, as long as there is room. -/
theorem Lists.place_of_room (h : w.Lists l) (hroom : w.samples.length < capacity) (v : Int32) :
    (w.place v).Lists (l ++ [v]) := by
  have hnext := h.next_eq_zero hroom
  have hl : w.samples = l := by
    rw [← h.rotate_eq, hnext, List.rotate_zero]
  rw [place, if_pos hroom]
  refine ⟨?_, h.next_lt, fun _ => hnext⟩
  dsimp only
  rw [hnext, List.rotate_zero, hl]

/-- Then it takes the place of the oldest one. -/
theorem Lists.place_of_full {old : Int32} (h : w.Lists (old :: l))
    (hfull : w.samples.length = capacity) (v : Int32) : (w.place v).Lists (l ++ [v]) := by
  have hlt : w.next < w.samples.length := Nat.lt_of_lt_of_eq h.next_lt hfull.symm
  have hplaced : (w.samples.set w.next v).length = capacity := by rw [List.length_set, hfull]
  have hwrap := List.rotate_mod (w.samples.set w.next v) (w.next + 1)
  rw [hplaced, rotate_set hlt, h.rotate_eq, List.tail_cons] at hwrap
  rw [place, if_neg (by omega)]
  exact ⟨hwrap, Nat.mod_lt _ (by omega), fun hroom => absurd hplaced (Nat.ne_of_lt hroom)⟩

/-! ### Another sample -/

theorem add_of_room (h : w.samples.length < capacity) (v : Int32) :
    w.add v = (w.place v).count v := by
  have hnone : w.evicted? = none := if_pos h
  rw [add, hnone]
  rfl

theorem add_of_forget {old : Int32} {rest : Window capacity} (h : w.evicted? = some old)
    (hrest : w.forget old = .ok rest) (v : Int32) : w.add v = (rest.place v).count v := by
  rw [add, h]
  simp only [hrest]
  rfl

/-- Another sample is placed after the latest ones, and counted with as many of them as
    leave room for it. -/
theorem Holds.add_eq_count (h : w.Holds l) (hfits : squares (l.rtake capacity) < 2 ^ 63)
    (v : Int32) :
    ∃ placed : Window capacity, w.add v = placed.count v ∧
      placed.Lists (l.rtake (capacity - 1) ++ [v]) ∧ placed.Sums (l.rtake (capacity - 1)) := by
  have hlength := h.lists.length_eq
  have hpos := h.lists.next_lt
  rcases Nat.lt_or_ge l.length capacity with hroom | hfull
  · have hall : l.rtake (capacity - 1) = l.rtake capacity := by
      rw [List.rtake, List.rtake, Nat.sub_eq_zero_of_le (by omega),
        Nat.sub_eq_zero_of_le (by omega)]
    have hroom' : w.samples.length < capacity := by omega
    rw [hall]
    exact ⟨w.place v, add_of_room hroom' v, h.lists.place_of_room hroom' v, h.sums.place v⟩
  · have hfull' : w.samples.length = capacity := by omega
    have hrest : l.rtake (capacity - 1) = (l.rtake capacity).tail := by
      rw [List.rtake, List.rtake, List.tail_drop]
      congr 1
      omega
    have hsome : 0 < (l.rtake capacity).length := by
      rw [length_rtake]
      omega
    obtain ⟨old, rest, hold⟩ := List.exists_cons_of_length_pos hsome
    have hlists := h.lists
    have hsums := h.sums
    rw [hold] at hlists hsums hfits
    rw [hrest, hold, List.tail_cons]
    have hforget := hsums.forget_eq hfits
    have hlists' : Window.Lists { w with sum := total rest, squareSum := squares rest }
        (old :: rest) :=
      ⟨hlists.rotate_eq, hlists.next_lt, hlists.next_eq_zero⟩
    exact ⟨_, add_of_forget (hlists.evicted?_eq hfull') hforget v,
      hlists'.place_of_full hfull' v, Sums.place ⟨rfl, rfl⟩ v⟩

/-- Another sample is taken, unless the squares of what the window would hold are too
    much for its sum. -/
theorem Holds.add_eq (h : w.Holds l) (hfits : squares (l.rtake capacity) < 2 ^ 63) (v : Int32) :
    ∃ w', w'.Holds (l ++ [v]) ∧
      w.add v =
        if squares ((l ++ [v]).rtake capacity) < 2 ^ 63 then .ok w' else .error .sumOverflow := by
  obtain ⟨placed, hadd, hlists, hsums⟩ := h.add_eq_count hfits v
  have hlatest : (l ++ [v]).rtake capacity = l.rtake (capacity - 1) ++ [v] := by
    have hpos := h.lists.next_lt
    obtain ⟨n, rfl⟩ : ∃ n, capacity = n + 1 := ⟨capacity - 1, by omega⟩
    rw [List.rtake_concat_succ, Nat.add_sub_cancel]
  rw [hlatest, hadd, hsums.count_eq]
  refine ⟨_, ⟨?_, ?_⟩, rfl⟩
  · rw [hlatest]
    exact ⟨hlists.rotate_eq, hlists.next_lt, hlists.next_eq_zero⟩
  · rw [hlatest]
    exact ⟨rfl, rfl⟩

/-! ### The mean and the best sample -/

theorem tdiv_between {a low high : Int} {n : Nat} (hn : 0 < n) (hlow : n * low ≤ a)
    (hhigh : a ≤ n * high) : low ≤ a.tdiv n ∧ a.tdiv n ≤ high := by
  have hn' : (0 : Int) < n := Int.natCast_pos.2 hn
  have hle := Int.tdiv_le_tdiv hn' hhigh
  rw [Int.mul_tdiv_cancel_left _ (Int.ne_of_gt hn')] at hle
  exact ⟨Int.le_tdiv_of_mul_le hn' (Int.mul_comm .. ▸ hlow), hle⟩

theorem Holds.mem_samples (h : w.Holds l) : v ∈ w.samples ↔ v ∈ l.rtake capacity := by
  rw [← h.lists.rotate_eq, List.mem_rotate]

theorem Holds.size_eq (h : w.Holds l) : w.size = (l.rtake capacity).length := by
  rw [← h.lists.rotate_eq, List.length_rotate]
  rfl

theorem Holds.mean_between {low high : Int} (h : w.Holds l) (hsome : 0 < w.size)
    (hl : ∀ v ∈ l.rtake capacity, low ≤ v.toInt ∧ v.toInt ≤ high) :
    low ≤ w.mean ∧ w.mean ≤ high := by
  obtain ⟨hlow, hhigh⟩ := total_bounds hl
  rw [← h.size_eq, ← h.sums.sum_eq] at hlow hhigh
  exact tdiv_between hsome hlow hhigh

theorem exists_best (h : 0 < w.size) :
    ∃ best ∈ w.samples, w.best = some best ∧
      ∀ v ∈ w.samples, best.toInt.natAbs ≤ v.toInt.natAbs := by
  obtain ⟨first, rest, hsamples⟩ := List.exists_cons_of_length_pos h
  rw [best, hsamples, List.foldl_cons]
  generalize first = b
  clear hsamples
  induction rest generalizing b with
  | nil => exact ⟨b, .head _, rfl, by simp⟩
  | cons v rest ih =>
    rw [List.foldl_cons]
    dsimp only
    split
    · next hless =>
      obtain ⟨u, hu, hbest, hle⟩ := ih v
      simp only [List.forall_mem_cons] at hle ⊢
      exact ⟨u, .tail _ hu, hbest, by omega, hle⟩
    · next hmore =>
      obtain ⟨u, hu, hbest, hle⟩ := ih b
      simp only [List.forall_mem_cons] at hle ⊢
      have hmem : u ∈ b :: v :: rest := by
        rcases List.mem_cons.1 hu with rfl | hu
        · exact .head _
        · exact .tail _ (.tail _ hu)
      exact ⟨u, hmem, hbest, hle.1, by omega, hle.2⟩

end Window

/-! ## The log of clock errors -/

namespace ErrorLog

variable {log log' : ErrorLog}

/-! ### The estimate -/

/-- There is an estimate once there are three errors. -/
theorem estimate_eq_none_iff (h : log.window.Holds l) :
    log.estimate = none ↔ (l.rtake errorWindow).length < minErrors := by
  have hsize := h.size_eq
  unfold estimate
  rw [hsize]
  split
  · next hfew => exact ⟨fun _ => hfew, fun _ => rfl⟩
  · next hmany =>
    have hsome : 0 < log.window.size := by
      rw [hsize]
      exact Nat.lt_of_lt_of_le (by decide) (Nat.le_of_not_lt hmany)
    obtain ⟨best, -, hbest, -⟩ := Window.exists_best hsome
    refine ⟨fun hnone => ?_, fun hfew => absurd hfew hmany⟩
    split at hnone
    · rw [hbest] at hnone
      cases hnone
    · cases hnone

/-- Whichever way the test of the deviation goes, the estimate lies between bounds of
    the errors. -/
theorem estimate_between {estimate low high : Int} (h : log.window.Holds l)
    (hestimate : log.estimate = some estimate)
    (hbounds : ∀ error ∈ l.rtake errorWindow, low ≤ error.toInt ∧ error.toInt ≤ high) :
    low ≤ estimate ∧ estimate ≤ high := by
  unfold ErrorLog.estimate at hestimate
  split at hestimate
  · cases hestimate
  · next hmany =>
    have hsome : 0 < log.window.size := Nat.lt_of_lt_of_le (by decide) (Nat.le_of_not_lt hmany)
    split at hestimate
    · obtain ⟨best, hmem, hbest, -⟩ := Window.exists_best hsome
      rw [hbest] at hestimate
      cases hestimate
      exact hbounds best (h.mem_samples.1 hmem)
    · cases hestimate
      exact h.mean_between hsome hbounds

/-- Errors that are all the same are what they tell. -/
theorem estimate_eq {error : Int32} (h : log.window.Holds l)
    (hmany : minErrors ≤ (l.rtake errorWindow).length)
    (hsame : ∀ error' ∈ l.rtake errorWindow, error' = error) :
    log.estimate = some error.toInt := by
  cases hestimate : log.estimate with
  | none => exact absurd ((estimate_eq_none_iff h).1 hestimate) (Nat.not_lt_of_le hmany)
  | some estimate =>
    obtain ⟨hlow, hhigh⟩ : error.toInt ≤ estimate ∧ estimate ≤ error.toInt :=
      estimate_between h hestimate fun error' herror => by
        rw [hsame error' herror]
        exact ⟨Int.le_refl _, Int.le_refl _⟩
    rw [Int.le_antisymm hhigh hlow]

theorem exists_add (h : log.window.Holds l) (error : Int32)
    (hfits : squares (l.rtake errorWindow) < 2 ^ 63)
    (hfits' : squares ((l ++ [error]).rtake errorWindow) < 2 ^ 63) :
    ∃ log', log.add error = .ok log' ∧ log'.window.Holds (l ++ [error]) := by
  obtain ⟨w, hw, hadd⟩ := h.add_eq hfits error
  rw [if_pos hfits'] at hadd
  rw [add, hadd]
  exact ⟨_, rfl, hw⟩

/-! ### Calls -/

/-- Something done to a log. -/
inductive Call where
  | add (error : Int32)
  | clearSamples
  | reset
deriving DecidableEq

/-- Makes a call. -/
def perform (l : ErrorLog) : Call → Except Fault ErrorLog
  | .add error => l.add error
  | .clearSamples => .ok l.clearSamples
  | .reset => .ok l.reset

/-- Makes some calls, one after the other. -/
def run (l : ErrorLog) (calls : List Call) : Except Fault ErrorLog := calls.foldlM perform l

/-- The errors since the last clear. -/
def sinceClear (calls : List Call) : List Int32 :=
  calls.foldl (fun errors c => match c with
    | .add error => errors ++ [error]
    | .clearSamples | .reset => []) []

/-- The errors that the next estimate is taken from. -/
def recent (calls : List Call) : List Int32 := (sinceClear calls).rtake errorWindow

/-- Their squares fit their sum. -/
def Fits (calls : List Call) : Prop := squares (recent calls) < 2 ^ 63

variable {calls : List Call} {c : Call} {error : Int32}

theorem sinceClear_add (calls : List Call) (error : Int32) :
    sinceClear (calls ++ [.add error]) = sinceClear calls ++ [error] := by
  simp [sinceClear]

theorem sinceClear_clear (hc : c = .clearSamples ∨ c = .reset) :
    sinceClear (calls ++ [c]) = [] := by
  rcases hc with rfl | rfl <;> simp [sinceClear]

theorem fits_of_clear (hc : c = .clearSamples ∨ c = .reset) : Fits (calls ++ [c]) := by
  rw [Fits, recent, sinceClear_clear hc]
  decide

theorem mem_of_mem_sinceClear (h : error ∈ sinceClear calls) : .add error ∈ calls := by
  induction calls using List.reverseRecOn with
  | nil => cases h
  | append_singleton calls c ih =>
    cases c with
    | add error' =>
      rw [sinceClear_add] at h
      rcases List.mem_append.1 h with h | h
      · exact List.mem_append_left _ (ih h)
      · obtain rfl := List.mem_singleton.1 h
        exact List.mem_append_right _ (.head _)
    | clearSamples | reset => simp [sinceClear] at h

/-- Errors whose squares are less than a quarter of the range fit. -/
theorem fits_of_le (h : ∀ error, .add error ∈ calls → error.toInt.natAbs ≤ 1518500249) :
    Fits calls :=
  squares_rtake_lt (by decide) fun error herror => h error (mem_of_mem_sinceClear herror)

/-- A log after some calls. -/
structure Tracks (log : ErrorLog) (calls : List Call) : Prop where
  holds : log.window.Holds (sinceClear calls)
  average_le : ∀ a, log.average = some a → a ≤ 2 ^ 31

theorem tracks_ofLimits (deviationThreshold reference : UInt32) :
    (ofLimits deviationThreshold reference).Tracks [] :=
  ⟨Window.holds_empty (by decide), nofun⟩

theorem nextAverage_le {average : Option Nat} {magnitude bound : Nat}
    (h : ∀ a, average = some a → a ≤ bound) (hm : magnitude ≤ bound) :
    nextAverage average magnitude ≤ bound := by
  unfold nextAverage
  split
  · exact hm
  · next a =>
    have := h a rfl
    omega

/-- A call is taken, unless the squares no longer fit. -/
theorem Tracks.perform (h : log.Tracks calls) (hfits : Fits calls) (c : Call) :
    ∃ log', log'.Tracks (calls ++ [c]) ∧
      (Fits (calls ++ [c]) → log.perform c = .ok log') ∧
      (¬Fits (calls ++ [c]) → log.perform c = .error .sumOverflow) := by
  cases c with
  | add error =>
    obtain ⟨w, hw, hadd⟩ := h.holds.add_eq hfits error
    have hmagnitude : error.toInt.natAbs ≤ 2 ^ 31 := by
      have := toInt_bounds error
      omega
    rw [← sinceClear_add] at hw hadd
    refine ⟨{ log with
      window := w, average := some (nextAverage log.average error.toInt.natAbs) },
      ⟨hw, fun a ha => ?_⟩, fun hfits' => ?_, fun hover => ?_⟩
    · cases ha
      exact nextAverage_le h.average_le hmagnitude
    · have hok : log.window.add error = .ok w := hadd.trans (if_pos hfits')
      rw [ErrorLog.perform, ErrorLog.add, hok]
      rfl
    · have hfault : log.window.add error = .error .sumOverflow := hadd.trans (if_neg hover)
      rw [ErrorLog.perform, ErrorLog.add, hfault]
      rfl
  | clearSamples =>
    have hempty : sinceClear (calls ++ [.clearSamples]) = [] := sinceClear_clear (.inl rfl)
    refine ⟨log.clearSamples, ⟨?_, h.average_le⟩, fun _ => rfl, fun hover => ?_⟩
    · rw [hempty]
      exact Window.holds_empty (by decide)
    · exact absurd (fits_of_clear (.inl rfl)) hover
  | reset =>
    have hempty : sinceClear (calls ++ [.reset]) = [] := sinceClear_clear (.inr rfl)
    refine ⟨log.reset, ⟨?_, nofun⟩, fun _ => rfl, fun hover => ?_⟩
    · rw [hempty]
      exact Window.holds_empty (by decide)
    · exact absurd (fits_of_clear (.inr rfl)) hover

theorem run_concat (log : ErrorLog) (calls : List Call) (c : Call) :
    log.run (calls ++ [c]) = log.run calls >>= fun log => log.perform c := by
  simp [run]

/-- Calls are taken up to the first one after which the squares do not fit. -/
theorem Tracks.run (h : log.Tracks []) (calls : List Call) :
    (∃ log', log.run calls = .ok log' ∧ log'.Tracks calls ∧ ∀ p, p <+: calls → Fits p) ∨
      (log.run calls = .error .sumOverflow ∧ ∃ p, p <+: calls ∧ ¬Fits p) := by
  induction calls using List.reverseRecOn with
  | nil =>
    refine .inl ⟨log, rfl, h, fun p hp => ?_⟩
    rw [List.prefix_nil.1 hp, Fits]
    decide
  | append_singleton calls c ih =>
    rw [run_concat]
    rcases ih with ⟨log', hrun, htracks, hfits⟩ | ⟨hrun, p, hp, hover⟩
    · obtain ⟨log'', htracks', hok, hfault⟩ := htracks.perform (hfits calls List.prefix_rfl) c
      rw [hrun]
      by_cases hnext : Fits (calls ++ [c])
      · refine .inl ⟨log'', hok hnext, htracks', fun p hp => ?_⟩
        rcases List.prefix_concat_iff.1 hp with rfl | hp
        · exact hnext
        · exact hfits p hp
      · exact .inr ⟨hfault hnext, _, List.prefix_rfl, hnext⟩
    · rw [hrun]
      exact .inr ⟨rfl, p, hp.trans (List.prefix_append ..), hover⟩

theorem Tracks.exists_run_iff (h : log.Tracks []) (calls : List Call) :
    (∃ log', log.run calls = .ok log') ↔ ∀ p, p <+: calls → Fits p := by
  rcases h.run calls with ⟨log', hrun, -, hfits⟩ | ⟨hfault, p, hp, hover⟩
  · exact ⟨fun _ => hfits, fun _ => ⟨log', hrun⟩⟩
  · refine ⟨fun ⟨log', hrun⟩ => ?_, fun hfits => absurd (hfits p hp) hover⟩
    rw [hfault] at hrun
    cases hrun

theorem Tracks.run_eq_ok (h : log.Tracks []) (hrun : log.run calls = .ok log') :
    log'.Tracks calls ∧ Fits calls := by
  rcases h.run calls with ⟨log'', hrun', htracks, hfits⟩ | ⟨hfault, -⟩
  · rw [hrun, Except.ok.injEq] at hrun'
    exact ⟨hrun' ▸ htracks, hfits calls List.prefix_rfl⟩
  · rw [hrun] at hfault
    cases hfault

theorem Tracks.run_eq_error {fault : Fault} (h : log.Tracks [])
    (hrun : log.run calls = .error fault) : fault = .sumOverflow := by
  rcases h.run calls with ⟨log', hok, -⟩ | ⟨hfault, -⟩
  · rw [hrun] at hok
    cases hok
  · rw [hrun, Except.error.injEq] at hfault
    exact hfault

theorem quality_le (log : ErrorLog) : log.quality ≤ 255 := by
  unfold quality
  split
  · decide
  · split
    · decide
    · exact Nat.sub_le ..

/-- **When clock errors overflow the sums.**  A log that is fed any 32-bit errors, cleared
    and reset takes them all if and only if after each of them the squares of the latest
    four since the last clear fit a signed 64-bit number; the sum of the squares is all
    that can overflow.  So nothing overflows as long as no error is larger than
    1518500249 microseconds.

    As long as nothing does, both sums are exact and in range, there is an estimate from
    three errors on and it is a signed 32-bit number, and the average magnitude and the
    quality are in their ranges. -/
theorem sums_exact (deviationThreshold reference : UInt32) (calls : List Call) :
    let log := ofLimits deviationThreshold reference
    ((∃ log', log.run calls = .ok log') ↔ ∀ p, p <+: calls → Fits p) ∧
    (∀ fault, log.run calls = .error fault → fault = .sumOverflow) ∧
    ((∀ error, .add error ∈ calls → error.toInt.natAbs ≤ 1518500249) →
      ∃ log', log.run calls = .ok log') ∧
    ∀ log', log.run calls = .ok log' →
      (log'.window.sum = total (recent calls) ∧ log'.window.squareSum = squares (recent calls) ∧
        log'.window.sum.natAbs ≤ log'.window.squareSum ∧ log'.window.squareSum < 2 ^ 63) ∧
      (log'.estimate = none ↔ (recent calls).length < minErrors) ∧
      (∀ estimate, log'.estimate = some estimate → -2 ^ 31 ≤ estimate ∧ estimate < 2 ^ 31) ∧
      (∀ average, log'.average = some average → average ≤ 2 ^ 31 ∧
        (average < log'.reference → average * 255 / log'.reference ≤ 255)) ∧
      log'.quality ≤ 255 := by
  intro log
  have hstart := tracks_ofLimits deviationThreshold reference
  refine ⟨hstart.exists_run_iff calls, fun fault => hstart.run_eq_error, fun hsmall => ?_,
    fun log' hrun => ?_⟩
  · exact (hstart.exists_run_iff calls).2 fun p hp =>
      fits_of_le fun error herror => hsmall error (hp.mem herror)
  · obtain ⟨htracks, hfits⟩ := hstart.run_eq_ok hrun
    have hsum := htracks.holds.sums.sum_eq
    have hsquares := htracks.holds.sums.squareSum_eq
    have hle := natAbs_total_le (recent calls)
    refine ⟨⟨hsum, hsquares, by rw [hsum, hsquares]; exact hle, by rw [hsquares]; exact hfits⟩,
      estimate_eq_none_iff htracks.holds, fun estimate hestimate => ?_,
      fun average haverage => ⟨htracks.average_le _ haverage, fun hlt => ?_⟩, log'.quality_le⟩
    · have hbounds : ∀ error ∈ recent calls,
          -2 ^ 31 ≤ error.toInt ∧ error.toInt ≤ 2 ^ 31 - 1 := fun error _ => by
        have := toInt_bounds error
        omega
      have := estimate_between htracks.holds hestimate hbounds
      omega
    · exact Nat.div_le_of_le_mul (Nat.mul_le_mul_right 255 (Nat.le_of_lt hlt))

/-- Of six errors the latest four count. -/
theorem sums_exact_of_six :
    let errors : List Int32 := [400, -400, 20, 22, 24, 26]
    ∃ log', (ofLimits 50 200).run (errors.map .add) = .ok log' ∧ log'.window.sum = 92 ∧
      log'.window.squareSum = 2136 ∧ log'.estimate ≠ none ∧ log'.quality ≤ 255 := by
  intro errors
  obtain ⟨-, -, htakes, hall⟩ := sums_exact 50 200 (errors.map .add)
  have hsmall : ∀ error ∈ errors, error.toInt.natAbs ≤ 1518500249 := by simp [errors]
  obtain ⟨log', hrun⟩ := htakes fun error herror => hsmall error (by simpa using herror)
  obtain ⟨⟨hsum, hsquares, -⟩, hnone, -, -, hquality⟩ := hall log' hrun
  exact ⟨log', hrun, hsum, hsquares, fun h => absurd (hnone.1 h) (by decide), hquality⟩

/-- Two errors of the greatest magnitude. -/
theorem not_sums_exact :
    ¬∀ (deviationThreshold reference : UInt32) (calls : List Call),
      ∃ log', (ofLimits deviationThreshold reference).run calls = .ok log' := by
  intro h
  obtain ⟨log', hrun⟩ := h 50 200 [.add (-2147483648), .add (-2147483648)]
  have hfault : ((ofLimits 50 200).run [.add (-2147483648), .add (-2147483648)]).toOption.isSome =
      false := by decide +kernel
  rw [hrun] at hfault
  cases hfault

end ErrorLog
end AirLink
