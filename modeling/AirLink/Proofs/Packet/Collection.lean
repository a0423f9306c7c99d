/-
  An identity is put together from the fragments of one collection.

  * `Assembly.Call` is what may be done to an assembly, and `Assembly.run` makes
    some calls, one after the other.  An `Entry` is a call with what it yielded.
  * `recent` is what a history holds of the collection that its last call
    belongs to: a collection ends with a reset, with an identity, and where the
    session or the number of fragments changes.
  * `Holds session count fs a` says that the assembly `a` has the latest bytes
    of each index in the fragments `fs`, and nothing else; `After l a` says what
    a history leaves behind.  Every call keeps it (`After.perform`).
  * `run_never_mixes` is what follows for all calls of a history.
-/
import Mathlib.Data.List.Induction
import AirLink.Packet.Assembly

namespace AirLink.Assembly

/-! ## Histories -/

/-- Something done to an assembly. -/
inductive Call where
  | accept (session : SessionId) (fragment : Fragment)
  | reset
deriving DecidableEq

/-- The index of a fragment is below the count, as reading it guarantees. -/
def Call.Valid : Call → Prop
  | accept _ f => f.index < f.count
  | reset => True

/-- The session, and the number of fragments of the identity. -/
def Call.key : Call → Option (SessionId × UInt8)
  | accept session f => some (session, f.count)
  | reset => none

/-- A call that was made, and the identity that it yielded. -/
structure Entry where
  call : Call
  identity : Option Bytes
deriving DecidableEq

/-- Makes a call. -/
def perform (a : Assembly) : Call → Except Fault (Option Bytes × Assembly)
  | .accept session f => a.accept session f
  | .reset => .ok (none, empty)

/-- Makes some calls, one after the other. -/
def run (a : Assembly) : List Call → Except Fault (List Entry × Assembly)
  | [] => .ok ([], a)
  | call :: rest => do
    let (identity, a) ← a.perform call
    let (l, a) ← a.run rest
    return (⟨call, identity⟩ :: l, a)

/-- Whether a collection ends between a call and the next one. -/
def Entry.endsBefore (x : Entry) (next : Call) : Bool :=
  x.call = .reset || x.identity.isSome || x.call.key ≠ next.key

/-- What a collection goes on with when the next call comes. -/
def carried (recent : List Entry) (next : Call) : List Entry :=
  if recent.getLast?.any (·.endsBefore next) then [] else recent

/-- The calls of the collection that the last call belongs to. -/
def recent (l : List Entry) : List Entry := l.foldl (fun r y => carried r y.call ++ [y]) []

def Entry.fragment? (x : Entry) : Option Fragment :=
  match x.call with
  | .accept _ f => some f
  | .reset => none

/-- The fragments that were taken, in order. -/
def fragments (l : List Entry) : List Fragment := l.filterMap Entry.fragment?

/-- The bytes that came last for an index. -/
def latest (fs : List Fragment) (i : Nat) : Option Bytes :=
  (fs.filter (·.index.toNat = i)).getLast?.map Fragment.bytes

/-- The latest bytes of all indices, in order. -/
def whole (fs : List Fragment) (count : Nat) : Bytes :=
  (List.range count).flatMap fun i => (latest fs i).getD []

variable {a a' : Assembly} {l : List Entry} {x y : Entry} {f : Fragment} {fs : List Fragment}
  {session : SessionId} {count : Nat} {next : Call}

@[simp] theorem recent_append (l : List Entry) (y : Entry) :
    recent (l ++ [y]) = carried (recent l) y.call ++ [y] := by
  simp [recent]

theorem getLast?_recent (l : List Entry) : (recent l).getLast? = l.getLast? := by
  rcases List.eq_nil_or_concat l with rfl | ⟨k, y, rfl⟩
  · rfl
  · simp [recent_append]

@[simp] theorem fragments_nil : fragments [] = [] := rfl

@[simp] theorem fragments_append (l : List Entry) (session : SessionId) (f : Fragment)
    (identity : Option Bytes) :
    fragments (l ++ [⟨.accept session f, identity⟩]) = fragments l ++ [f] := by
  simp [fragments, Entry.fragment?]

@[simp] theorem latest_append (fs : List Fragment) (f : Fragment) (i : Nat) :
    latest (fs ++ [f]) i = if f.index.toNat = i then some f.bytes else latest fs i := by
  by_cases h : f.index.toNat = i
  · simp [latest, h]
  · simp [latest, h]

theorem latest_eq_none (fs : List Fragment) (i : Nat) :
    latest fs i = none ↔ ∀ g ∈ fs, g.index.toNat ≠ i := by
  simp [latest]

/-- Within a collection neither session nor count changes. -/
theorem key_of_mem_recent (l : List Entry) (hx : x ∈ recent (l ++ [y])) :
    x.call.key = y.call.key := by
  induction l using List.reverseRecOn generalizing x y with
  | nil =>
    simp [recent, carried] at hx
    rw [hx]
  | append_singleton l z ih =>
    rw [recent_append, carried, getLast?_recent] at hx
    simp only [List.getLast?_concat, Option.any_some] at hx
    by_cases hz : z.endsBefore y.call
    · simp [hz] at hx
      rw [hx]
    · rw [if_neg hz] at hx
      rcases List.mem_append.1 hx with hx | hx
      · simp only [Entry.endsBefore, Bool.or_eq_true, decide_eq_true_eq, not_or,
          Classical.not_not] at hz
        exact (ih hx).trans hz.2
      · rw [List.mem_singleton.1 hx]

/-! ## What an assembly holds -/

/-- An assembly for an identity of `count` fragments, which has taken `fs`. -/
structure Holds (session : SessionId) (count : Nat) (fs : List Fragment) (a : Assembly) :
    Prop where
  session_eq : a.session = some session
  parts_eq : a.parts = (List.range count).map (latest fs)

theorem holds_fresh (session : SessionId) (count : Nat) :
    (fresh session count).Holds session count [] where
  session_eq := rfl
  parts_eq := by
    apply List.ext_getElem
    · simp [fresh]
    · intro i hi hi'
      simp [fresh, latest]

theorem Holds.openFor (h : a.Holds session count fs) (session' : SessionId) (count' : Nat) :
    (a.openFor session' count').Holds session' count'
      (if session = session' ∧ count = count' then fs else []) := by
  have hiff : (a.session = some session' ∧ a.parts.length = count') ↔
      session = session' ∧ count = count' := by
    simp [h.session_eq, h.parts_eq]
  rw [Assembly.openFor, if_congr hiff rfl rfl]
  by_cases hsame : session = session' ∧ count = count'
  · obtain ⟨rfl, rfl⟩ := hsame
    simpa using h
  · rw [if_neg hsame, if_neg hsame]
    exact holds_fresh session' count'

theorem Holds.openFor_self (h : a.Holds session count fs) :
    (a.openFor session count).Holds session count fs := by
  simpa using h.openFor session count

theorem mapM_id_eq_some {α : Type} {l : List (Option α)} {r : List α} :
    l.mapM id = some r ↔ l = r.map some := by
  induction l generalizing r with
  | nil => cases r <;> simp
  | cons o l ih =>
    simp only [List.mapM_cons, id_eq, bind, pure, Option.bind_eq_some_iff, Option.some.injEq]
    constructor
    · rintro ⟨a, rfl, k, hk, rfl⟩
      rw [ih.1 hk, List.map_cons]
    · intro h
      cases r with
      | nil => cases h
      | cons a k =>
        obtain ⟨rfl, hl⟩ := List.cons.inj h
        exact ⟨a, rfl, k, ih.2 hl, rfl⟩

theorem Holds.identity?_eq (h : a.Holds session count fs) :
    a.identity? = if ∀ i < count, latest fs i ≠ none then some (whole fs count) else none := by
  have hparts (parts : List Bytes) : a.parts.mapM id = some parts ↔
      (List.range count).map (latest fs) = parts.map some := by
    rw [mapM_id_eq_some, h.parts_eq]
  by_cases hall : ∀ i < count, latest fs i ≠ none
  · have hsome : a.parts.mapM id = some ((List.range count).map fun i => (latest fs i).getD []) := by
      rw [hparts, List.map_map]
      apply List.map_congr_left
      intro i hi
      obtain ⟨bytes, hb⟩ := Option.ne_none_iff_exists'.1 (hall i (List.mem_range.1 hi))
      simp [hb]
    rw [if_pos hall, identity?, hsome, Option.map_some, whole, List.flatMap_def]
  · have hnone : a.parts.mapM id = none := by
      refine Option.eq_none_iff_forall_ne_some.2 fun parts hp => hall fun i hi hi' => ?_
      have hmem : latest fs i ∈ parts.map some := by
        rw [← (hparts parts).1 hp]
        exact List.mem_map_of_mem (List.mem_range.2 hi)
      rw [hi'] at hmem
      simp at hmem
    rw [if_neg hall, identity?, hnone, Option.map_none]

/-- Taking a fragment into the collection that is open for it. -/
theorem accept_eq (h : (a.openFor session f.count.toNat).Holds session f.count.toNat fs)
    (hi : f.index < f.count) :
    (∀ i < f.count.toNat, latest (fs ++ [f]) i ≠ none) ∧
      a.accept session f =
        .ok (some (whole (fs ++ [f]) f.count.toNat), fresh session f.count.toNat) ∨
    (∃ i < f.count.toNat, latest (fs ++ [f]) i = none) ∧
      ∃ a', a.accept session f = .ok (none, a') ∧ a'.Holds session f.count.toNat (fs ++ [f]) := by
  unfold accept
  generalize a.openFor session f.count.toNat = b at h ⊢
  have hlength : b.parts.length = f.count.toNat := by simp [h.parts_eq]
  have hindex : f.index.toNat < b.parts.length := hlength ▸ hi
  have hset : Holds session f.count.toNat (fs ++ [f])
      { b with parts := b.parts.set f.index.toNat (some f.bytes) } := by
    refine ⟨h.session_eq, ?_⟩
    apply List.ext_getElem
    · simp [hlength]
    · intro i hi hi'
      simp [List.getElem_set, h.parts_eq]
  dsimp only
  rw [if_pos hindex, hset.identity?_eq]
  by_cases hall : ∀ i < f.count.toNat, latest (fs ++ [f]) i ≠ none
  · refine .inl ⟨hall, ?_⟩
    rw [if_pos hall, List.length_set, hlength]
  · refine .inr ⟨by simpa using hall, _, ?_, hset⟩
    rw [if_neg hall]

/-! ## What a history leaves behind -/

/-- The assembly that a history leads to. -/
inductive After : List Entry → Assembly → Prop
  | start : After [] empty
  | reset {l : List Entry} : After (l ++ [⟨.reset, none⟩]) empty
  | complete {l : List Entry} {session : SessionId} {f : Fragment} {identity : Bytes} :
      After (l ++ [⟨.accept session f, some identity⟩]) (fresh session f.count.toNat)
  | gather {l : List Entry} {session : SessionId} {f : Fragment} {a : Assembly}
      (h : a.Holds session f.count.toNat (fragments (recent (l ++ [⟨.accept session f, none⟩])))) :
      After (l ++ [⟨.accept session f, none⟩]) a

theorem carried_of_endsBefore (h : x.endsBefore next) :
    carried (recent (l ++ [x])) next = [] := by
  simp [carried, getLast?_recent, h]

theorem carried_of_not_endsBefore (h : x.endsBefore next = false) :
    carried (recent (l ++ [x])) next = recent (l ++ [x]) := by
  rw [carried, getLast?_recent]
  simp [h]

/-- The next fragment joins what is carried on. -/
theorem After.openFor (h : After l a) (session : SessionId) (f : Fragment) :
    (a.openFor session f.count.toNat).Holds session f.count.toNat
      (fragments (carried (recent l) (.accept session f))) := by
  cases h with
  | start => exact holds_fresh session f.count.toNat
  | reset =>
    rw [carried_of_endsBefore (by simp [Entry.endsBefore])]
    exact holds_fresh session f.count.toNat
  | @complete l session' f' =>
    rw [carried_of_endsBefore (by simp [Entry.endsBefore])]
    simpa using (holds_fresh session' f'.count.toNat).openFor session f.count.toNat
  | @gather l session' f' _ h =>
    have hopen := h.openFor session f.count.toNat
    by_cases hsame : session' = session ∧ f'.count = f.count
    · rw [carried_of_not_endsBefore (by simp [Entry.endsBefore, Call.key, hsame])]
      simpa [hsame] using hopen
    · rw [carried_of_endsBefore (by simpa [Entry.endsBefore, Call.key, ← not_and_or] using hsame)]
      simpa [UInt8.toNat_inj, hsame] using hopen

/-! ## Calls -/

/-- What a history says of its last call, if that takes a fragment: the calls of
    the collection are all about one identity, which is there if and only if
    each of its indices has come. -/
def Faithful (l : List Entry) (x : Entry) : Prop :=
  ∀ session f, x.call = .accept session f →
    (∀ y ∈ recent (l ++ [x]), ∃ g, y.call = .accept session g ∧ g.count = f.count) ∧
    match x.identity with
    | some identity =>
      (∀ i < f.count.toNat, ∃ g ∈ fragments (recent (l ++ [x])), g.index.toNat = i) ∧
        identity = whole (fragments (recent (l ++ [x]))) f.count.toNat
    | none => ∃ i < f.count.toNat, ∀ g ∈ fragments (recent (l ++ [x])), g.index.toNat ≠ i

/-- A valid call has a result, which is what the history says. -/
theorem After.perform (h : After l a) {call : Call} (hv : call.Valid) :
    ∃ identity a', a.perform call = .ok (identity, a') ∧ After (l ++ [⟨call, identity⟩]) a' ∧
      Faithful l ⟨call, identity⟩ := by
  cases call with
  | reset => exact ⟨none, empty, rfl, .reset, nofun⟩
  | accept session f =>
    have hkey (identity : Option Bytes) : ∀ y ∈ recent (l ++ [⟨.accept session f, identity⟩]),
        ∃ g, y.call = .accept session g ∧ g.count = f.count := by
      rintro ⟨call, _⟩ hy
      have hk := key_of_mem_recent l hy
      cases call with
      | reset => cases hk
      | accept session' g =>
        simp only [Call.key, Option.some.injEq, Prod.mk.injEq] at hk
        exact ⟨g, by rw [hk.1], hk.2⟩
    rcases accept_eq (h.openFor session f) hv with ⟨hall, ha⟩ | ⟨⟨i, hi, hnone⟩, a', ha, hh⟩
    · refine ⟨_, _, ha, .complete, ?_⟩
      rintro _ _ ⟨⟩
      refine ⟨hkey _, fun i hi => ?_, by simp⟩
      have := hall i hi
      rw [Ne, latest_eq_none] at this
      simpa using this
    · refine ⟨_, _, ha, .gather (by simpa using hh), ?_⟩
      rintro _ _ ⟨⟩
      refine ⟨hkey none, i, hi, ?_⟩
      rw [latest_eq_none] at hnone
      simpa using hnone

theorem After.run {calls : List Call} (h : After l a) (hv : ∀ c ∈ calls, c.Valid) :
    ∃ k a', a.run calls = .ok (k, a') ∧ k.map Entry.call = calls ∧ After (l ++ k) a' ∧
      ∀ before x later, k = before ++ x :: later → Faithful (l ++ before) x := by
  induction calls generalizing l a with
  | nil =>
    refine ⟨[], a, rfl, rfl, by simpa using h, ?_⟩
    intro before x later hk
    simp at hk
  | cons call rest ih =>
    obtain ⟨identity, b, hb, hafter, hfaithful⟩ := h.perform (hv call (by simp))
    obtain ⟨k, a', hk, hcalls, hend, hrest⟩ := ih hafter fun c hc => hv c (by simp [hc])
    refine ⟨⟨call, identity⟩ :: k, a', ?_, ?_, ?_, ?_⟩
    · simp [Assembly.run, hb, hk, bind, Except.bind, pure, Except.pure]
    · simp [hcalls]
    · simpa using hend
    · intro before x later hsplit
      cases before with
      | nil =>
        obtain ⟨rfl, -⟩ := List.cons.inj hsplit
        simpa using hfaithful
      | cons z before =>
        obtain ⟨rfl, htail⟩ := List.cons.inj hsplit
        simpa using hrest before x later htail

/-- **An assembly never mixes identities.**  Whatever fragments are taken, of
    whatever sessions, and whatever is reset: a call yields an identity just if
    all the indices have come since the collection began, in fragments of this
    session and this count only, and the identity is made of the bytes that came
    last for each. -/
theorem run_never_mixes (calls : List Call) (hv : ∀ c ∈ calls, c.Valid) :
    ∃ l a, empty.run calls = .ok (l, a) ∧ l.map Entry.call = calls ∧
      ∀ before session f identity later,
        l = before ++ ⟨.accept session f, identity⟩ :: later →
        let collection := recent (before ++ [⟨.accept session f, identity⟩])
        (∀ x ∈ collection, ∃ g, x.call = .accept session g ∧ g.count = f.count) ∧
        match identity with
        | some identity =>
          (∀ i < f.count.toNat, ∃ g ∈ fragments collection, g.index.toNat = i) ∧
            identity = whole (fragments collection) f.count.toNat
        | none => ∃ i < f.count.toNat, ∀ g ∈ fragments collection, g.index.toNat ≠ i := by
  obtain ⟨l, a, hrun, hcalls, -, hfaithful⟩ := After.start.run hv
  refine ⟨l, a, hrun, hcalls, ?_⟩
  intro before session f identity later hl
  exact hfaithful before _ later hl session f rfl

/-- Fragments of two sessions, and two for one index. -/
def crossed : List Entry :=
  [⟨.accept 5 ⟨0, 2, [1]⟩, none⟩, ⟨.accept 6 ⟨1, 2, [2]⟩, none⟩, ⟨.accept 5 ⟨1, 2, [3]⟩, none⟩,
    ⟨.accept 5 ⟨1, 2, [4]⟩, none⟩]

/-- The fragment that completes the identity is put together with the last two,
    and not with the first one of its session. -/
theorem run_never_mixes_of_crossed :
    let calls := crossed.map Entry.call ++ [.accept 5 ⟨0, 2, [5]⟩]
    let collection := recent (crossed ++ [⟨.accept 5 ⟨0, 2, [5]⟩, some [5, 4]⟩])
    (∀ c ∈ calls, c.Valid) ∧
    (∃ a, empty.run calls = .ok (crossed ++ [⟨.accept 5 ⟨0, 2, [5]⟩, some [5, 4]⟩], a)) ∧
    collection.length = 3 ∧
    (∀ x ∈ collection, ∃ g, x.call = .accept 5 g ∧ g.count = 2) ∧
    (∀ i < 2, ∃ g ∈ fragments collection, g.index.toNat = i) ∧
    [5, 4] = whole (fragments collection) 2 := by
  intro calls collection
  have hv : ∀ c ∈ calls, c.Valid := by simp [calls, crossed, Call.Valid]
  obtain ⟨l, a, hrun, -, hall⟩ := run_never_mixes calls hv
  have hl : empty.run calls =
    .ok (crossed ++ [⟨.accept 5 ⟨0, 2, [5]⟩, some [5, 4]⟩], fresh 5 2) := rfl
  obtain ⟨rfl, rfl⟩ := Prod.mk.inj (Except.ok.inj (hl.symm.trans hrun))
  obtain ⟨hkey, hseen, hwhole⟩ := hall crossed 5 ⟨0, 2, [5]⟩ (some [5, 4]) [] rfl
  exact ⟨hv, ⟨_, hl⟩, rfl, hkey, hseen, hwhole⟩

end AirLink.Assembly
