/-
  An identity gets across in its fragments, in whatever order they come.

  A fragment that is cut from an identity is read back as it was written
  (`Fragment.read_write_of`), and the pieces make up the identity
  (`flatMap_piece`).  A sender that passes running numbers goes round the
  fragments; `rounds` says which of its numbers complete a round, in which every
  fragment has come.  `identity_round_trips`: it is just these that yield the
  identity.
-/
import AirLink.Proofs.Message.WireFormat
import AirLink.Proofs.Packet.Collection

namespace AirLink

/-! ## Fragments of an identity -/

theorem fragmentCount_bounds {n : Nat} (hpos : 0 < n) (hle : n ≤ maxFragments * fragmentCapacity) :
    0 < fragmentCount n ∧ fragmentCount n ≤ maxFragments ∧
      (fragmentCount n - 1) * fragmentCapacity < n ∧ n ≤ fragmentCount n * fragmentCapacity := by
  simp only [fragmentCount, fragmentCapacity, maxFragments] at *
  omega

namespace Fragment

/-- The bytes of an identity that belong to an index. -/
def piece (identity : Bytes) (i : Nat) : Bytes :=
  (identity.drop (i * fragmentCapacity)).take fragmentCapacity

variable {identity : Bytes}

/-- The pieces up to an index are the beginning of the identity. -/
theorem flatMap_piece (identity : Bytes) (n : Nat) :
    (List.range n).flatMap (piece identity) = identity.take (n * fragmentCapacity) := by
  induction n with
  | zero => simp
  | succ n ih => simp [List.range_succ, ih, piece, Nat.succ_mul, List.take_add]

section
variable (hpos : 0 < identity.length) (hle : identity.length ≤ maxFragments * fragmentCapacity)
include hpos hle

theorem toNat_count_of (n : Nat) :
    (of identity n).count.toNat = fragmentCount identity.length := by
  have := (fragmentCount_bounds hpos hle).2.1
  simp only [of, UInt8.toNat_ofNat', maxFragments] at *
  omega

theorem toNat_index_of (n : Nat) :
    (of identity n).index.toNat = n % fragmentCount identity.length := by
  have hcount := fragmentCount_bounds hpos hle
  have := Nat.mod_lt n hcount.1
  simp only [of, UInt8.toNat_ofNat', maxFragments] at *
  omega

theorem wellFormed_of (n : Nat) : (of identity n).WellFormed := by
  obtain ⟨hcount, hmax, hlast, -⟩ := fragmentCount_bounds hpos hle
  have hmod := Nat.mod_lt n hcount
  constructor
  case count_le =>
    rw [toNat_count_of hpos hle]
    exact hmax
  case index_lt =>
    rw [UInt8.lt_iff_toNat_lt, toNat_index_of hpos hle, toNat_count_of hpos hle]
    exact hmod
  case bytes_pos =>
    have hstart : n % fragmentCount identity.length * fragmentCapacity < identity.length := by
      have := Nat.mul_le_mul_right fragmentCapacity (Nat.le_sub_one_of_lt hmod)
      omega
    simp only [of, List.length_take, List.length_drop, fragmentCapacity] at *
    omega
  case bytes_le => exact List.length_take_le ..

theorem read_write_of (n : Nat) : read (of identity n).write = .ok (of identity n) :=
  read_eq_ok.2 ⟨wellFormed_of hpos hle n, rfl⟩

end
end Fragment

/-! ## Rounds -/

/-- Which numbers of a sequence complete a round: one by which every index has come
    since the last round, where `since` are the numbers since then. -/
def rounds (count : Nat) : (since : List Nat) → List Nat → List Bool
  | _, [] => []
  | since, n :: rest =>
    if ∀ i < count, ∃ k ∈ since ++ [n], k % count = i then true :: rounds count [] rest
    else false :: rounds count (since ++ [n]) rest

theorem true_mem_rounds {count : Nat} {since numbers : List Nat} (hn : numbers ≠ [])
    (h : ∀ i < count, ∃ k ∈ since ++ numbers, k % count = i) : true ∈ rounds count since numbers := by
  induction numbers generalizing since with
  | nil => exact absurd rfl hn
  | cons n rest ih =>
    unfold rounds
    by_cases hround : ∀ i < count, ∃ k ∈ since ++ [n], k % count = i
    · rw [if_pos hround]
      exact List.mem_cons_self ..
    · rw [if_neg hround]
      refine List.mem_cons_of_mem _ (ih ?_ (by simpa using h))
      rintro rfl
      exact hround h

namespace Assembly

variable {identity : Bytes} {session : SessionId} {a : Assembly}

theorem exists_of_latest {fs : List Fragment} {i : Nat} {bytes : Bytes}
    (h : latest fs i = some bytes) : ∃ g ∈ fs, g.index.toNat = i ∧ g.bytes = bytes := by
  obtain ⟨g, hg, hb⟩ := Option.map_eq_some_iff.1 h
  have hmem := List.mem_of_getLast? hg
  simp only [List.mem_filter, decide_eq_true_eq] at hmem
  exact ⟨g, hmem.1, hmem.2, hb⟩

section
variable (hpos : 0 < identity.length) (hle : identity.length ≤ maxFragments * fragmentCapacity)
include hpos hle

theorem latest_of_ne_none (numbers : List Nat) (i : Nat) :
    latest (numbers.map (Fragment.of identity)) i ≠ none ↔
      ∃ k ∈ numbers, k % fragmentCount identity.length = i := by
  rw [Ne, latest_eq_none]
  simp [Fragment.toNat_index_of hpos hle]

theorem whole_of {numbers : List Nat}
    (h : ∀ i < fragmentCount identity.length, ∃ k ∈ numbers,
      k % fragmentCount identity.length = i) :
    whole (numbers.map (Fragment.of identity)) (fragmentCount identity.length) = identity := by
  have hpiece : ∀ i ∈ List.range (fragmentCount identity.length),
      (latest (numbers.map (Fragment.of identity)) i).getD [] = Fragment.piece identity i := by
    intro i hi
    have hcame := (latest_of_ne_none hpos hle numbers i).2 (h i (List.mem_range.1 hi))
    obtain ⟨bytes, hb⟩ := Option.ne_none_iff_exists'.1 hcame
    obtain ⟨g, hg, hindex, rfl⟩ := exists_of_latest hb
    obtain ⟨k, -, rfl⟩ := List.mem_map.1 hg
    rw [Fragment.toNat_index_of hpos hle] at hindex
    rw [hb, ← hindex]
    rfl
  rw [whole, List.flatMap_def, List.map_congr_left hpiece, ← List.flatMap_def,
    Fragment.flatMap_piece]
  exact List.take_of_length_le (fragmentCount_bounds hpos hle).2.2.2

/-- From an assembly that has taken the fragments with the numbers `since`, those
    that complete a round yield the identity. -/
theorem run_of {since : List Nat} (numbers : List Nat)
    (h : (a.openFor session (fragmentCount identity.length)).Holds session
      (fragmentCount identity.length) (since.map (Fragment.of identity))) :
    ∃ l a', a.run (numbers.map fun n => .accept session (Fragment.of identity n)) = .ok (l, a') ∧
      l.map Entry.identity = (rounds (fragmentCount identity.length) since numbers).map
        fun round => if round then some identity else none := by
  induction numbers generalizing a since with
  | nil => exact ⟨[], a, rfl, rfl⟩
  | cons n rest ih =>
    have hcount := Fragment.toNat_count_of hpos hle n
    have hindex := (Fragment.wellFormed_of hpos hle n).index_lt
    have hlatest := latest_of_ne_none hpos hle (since ++ [n])
    rw [← hcount] at h
    have haccept := accept_eq h hindex
    rw [← List.map_singleton, ← List.map_append] at haccept
    simp only [hcount, hlatest] at haccept
    rcases haccept with ⟨hround, ha⟩ | ⟨⟨i, hi, hmissing⟩, b, ha, hb⟩
    · have hnew : Holds session (fragmentCount identity.length)
          ([].map (Fragment.of identity)) (fresh session (fragmentCount identity.length)) :=
        holds_fresh session _
      obtain ⟨l, a', hrun, hl⟩ := ih hnew.openFor_self
      refine ⟨⟨.accept session (Fragment.of identity n), some identity⟩ :: l, a', ?_, ?_⟩
      · simp only [List.map_cons, run, perform, ha, hrun, whole_of hpos hle hround, bind,
          Except.bind, pure, Except.pure]
      · rw [List.map_cons, hl, rounds, if_pos hround, List.map_cons, if_pos rfl]
    · have hopen : ¬ ∀ i < fragmentCount identity.length, ∃ k ∈ since ++ [n],
          k % fragmentCount identity.length = i :=
        fun hround => (hlatest i).2 (hround i hi) hmissing
      obtain ⟨l, a', hrun, hl⟩ := ih hb.openFor_self
      refine ⟨⟨.accept session (Fragment.of identity n), none⟩ :: l, a', ?_, ?_⟩
      · simp only [List.map_cons, run, perform, ha, hrun, bind, Except.bind, pure, Except.pure]
      · rw [List.map_cons, hl, rounds, if_neg hopen, List.map_cons, if_neg Bool.false_ne_true]

end

/-- **An identity gets across in any order of its fragments.**  Whatever running
    numbers they are sent with, every fragment is read as it was written, and it
    yields the identity if it completes a round, and nothing otherwise.  Numbers
    that cover all fragments complete one. -/
theorem identity_round_trips (hpos : 1 ≤ identity.length) (hle : identity.length ≤ 315)
    (session : SessionId) (numbers : List Nat) :
    ∃ fs l a, numbers.mapM (fun n => Fragment.read (Fragment.of identity n).write) = .ok fs ∧
      empty.run (fs.map (.accept session)) = .ok (l, a) ∧
      l.map Entry.identity = (rounds (fragmentCount identity.length) [] numbers).map
        (fun round => if round then some identity else none) ∧
      ((∀ i < fragmentCount identity.length, ∃ n ∈ numbers,
          n % fragmentCount identity.length = i) →
        some identity ∈ l.map Entry.identity) := by
  have hstart : (empty.openFor session (fragmentCount identity.length)).Holds session
      (fragmentCount identity.length) ([].map (Fragment.of identity)) := holds_fresh session _
  obtain ⟨l, a, hrun, hl⟩ := run_of hpos hle numbers hstart
  refine ⟨numbers.map (Fragment.of identity), l, a, ?_, ?_, hl, fun hcover => ?_⟩
  · simp only [Fragment.read_write_of hpos hle]
    exact List.mapM_pure
  · rw [List.map_map]
    exact hrun
  · rw [hl]
    have hn : numbers ≠ [] := by
      obtain ⟨n, hn, -⟩ := hcover 0 (fragmentCount_bounds hpos hle).1
      exact List.ne_nil_of_mem hn
    exact List.mem_map.2 ⟨true, true_mem_rounds hn hcover, rfl⟩

/-- Three fragments, which come in another order and more than once, twice. -/
theorem identity_round_trips_of_three :
    let identity : Bytes := (List.range 43).map UInt8.ofNat
    let numbers := [5, 1, 2, 0, 4, 4, 3, 8]
    1 ≤ identity.length ∧ identity.length ≤ 315 ∧
    ∃ fs l a, numbers.mapM (fun n => Fragment.read (Fragment.of identity n).write) = .ok fs ∧
      empty.run (fs.map (.accept 7)) = .ok (l, a) ∧
      l.map Entry.identity =
        [none, none, none, some identity, none, none, none, some identity] := by
  intro identity numbers
  obtain ⟨fs, l, a, hread, hrun, hl, -⟩ :=
    identity_round_trips (show 1 ≤ identity.length by decide) (by decide) 7 numbers
  have hrounds : rounds (fragmentCount identity.length) [] numbers =
    [false, false, false, true, false, false, false, true] := by decide
  rw [hrounds] at hl
  exact ⟨by decide, by decide, fs, l, a, hread, hrun, hl⟩

end Assembly

end AirLink
