import SampleTypes.Proofs.DepthFirst
import SampleTypes.Proofs.Inference.Types
import SampleTypes.Proofs.Stages

/-!
# Where inference stops

Inference fails exactly if the walk comes to a value at which it stops, and it tells of the first of
these in depth-first order. A place in a value is given by the positions of the parts that lead to
it, and depth-first order is the lexicographic order of positions. Nearly always that is the first
value that can be called. But a list or tuple may count as true by its nature and have no item;
where such a one comes first, the walk breaks off there, and a value that can be called behind it is
not told of.

## Main definitions

* `Sample.Reaches` — the places that the walk can come to
* `Sample.FindsAt` — those of them with a value of some kind
* `Sample.FindsBehind` — the same from behind a part
* `Path.LastName` — the last name on a path, if there is any

## Main results

* `not_stops_of_reaches` — where a value has a type, inference stops at none of its parts
* `infer_eq_error_iff` — inference fails for the first value at which it stops
* `infer_error_iff_offender` — when inference fails for a value that can be called, and what the
  error says
-/

namespace SampleTypes

/-- The walk from a value comes to another by parts at the given positions, along a path. -/
inductive Sample.Reaches : Sample → List Nat → Path → Sample → Prop
  | here (s : Sample) : Reaches s [] [] s
  | part {s part t : Sample} {i : Nat} {step : Step} {positions : List Nat} {path : Path}
      (h : s.parts[i]? = some (step, part)) (rest : Reaches part positions path t) :
      Reaches s (i :: positions) (step :: path) t

/-- The walk comes to a place with a value of some kind, along a path. -/
def Sample.FindsAt (s : Sample) (kind : Sample → Bool) (place : List Nat)
    (found : Path × Sample) : Prop :=
  s.Reaches place found.1 found.2 ∧ kind found.2 = true

/-- Behind a part the same is found as within it, with the step to the part in front of the path. -/
def Sample.FindsBehind (kind : Sample → Bool) (part : Step × Sample) (place : List Nat)
    (found : Path × Sample) : Prop :=
  ∃ within, part.2.FindsAt kind place within ∧ (part.1 :: within.1, within.2) = found

/-! ## Reasons to stop -/

namespace Sample

variable {s : Sample} {path : Path}

theorem stops_iff : s.stops = true ↔ s.isOffender = true ∨ s.isBarren = true := by
  rw [stops, Bool.or_eq_true]

theorem isOffender_of_isBarren (h : s.isBarren = true) : s.isOffender = false := by
  cases s with
  | sequence kind n items =>
    cases kind with
    | run => cases h
    | _ =>
      -- A barren list is open, and nothing open can be called.
      simp only [isBarren, Nature.isOpen, Bool.and_eq_true, Bool.not_eq_true'] at h
      simp [isOffender, nature, h.1.1.1.1]
  | _ => cases h

theorem whyUntyped_eq_unsupported_iff {e : Unsupported} :
    s.whyUntyped path = .unsupported e ↔ s.isOffender = true ∧ e = .found path s.nature := by
  rw [whyUntyped]
  split_ifs with offends
  · simp [offends, eq_comm]
  · simp [offends]

theorem whyUntyped_eq_noItem_iff (h : s.stops = true) :
    s.whyUntyped path = .noItem ↔ s.isBarren = true := by
  rw [whyUntyped]
  split_ifs with offends
  · refine iff_of_false (by simp) fun barren => ?_
    rw [isOffender_of_isBarren barren] at offends
    cases offends
  · exact iff_of_true rfl ((stops_iff.1 h).resolve_left offends)

/-! ## Places -/

/-- In one place stands one value, at the end of one path. -/
theorem Reaches.unique {place : List Nat} {path path' : Path} {t t' : Sample}
    (h : s.Reaches place path t) (h' : s.Reaches place path' t') : path = path' ∧ t = t' := by
  induction h generalizing path' with
  | here s =>
    cases h'
    exact ⟨rfl, rfl⟩
  | part h _ ih =>
    cases h' with
    | part h' rest' =>
      cases h.symm.trans h'
      obtain ⟨rfl, rfl⟩ := ih rest'
      exact ⟨rfl, rfl⟩

/-- The parts of a value with their positions. -/
def placedParts (s : Sample) : List (Nat × (Step × Sample)) := s.parts.mapIdx Prod.mk

theorem placedParts_ordered (s : Sample) : s.placedParts.Pairwise fun p q => p.1 < q.1 := by
  rw [placedParts, List.pairwise_iff_getElem]
  intro i j _ _ lt
  simpa using lt

/-- What is found in a value that is not of the kind itself is found behind one of its parts. -/
theorem findsAt_iff {kind : Sample → Bool} (other : kind s = false) (place : List Nat)
    (found : Path × Sample) :
    s.FindsAt kind place found ↔
      ∃ p ∈ s.placedParts, ∃ rest, place = p.1 :: rest ∧ FindsBehind kind p.2 rest found := by
  constructor
  · rintro ⟨reaches, ofKind⟩
    obtain ⟨route, t⟩ := found
    cases reaches with
    | here =>
      rw [other] at ofKind
      cases ofKind
    | @part _ part _ i step rest path h reaches =>
      obtain ⟨inside, here⟩ := List.getElem?_eq_some_iff.1 h
      have mem : (i, step, part) ∈ s.placedParts :=
        List.mem_mapIdx.2 ⟨i, inside, congrArg (Prod.mk i) here⟩
      exact ⟨_, mem, rest, rfl, (path, t), ⟨reaches, ofKind⟩, rfl⟩
  · rintro ⟨p, mem, rest, rfl, within, ⟨reaches, ofKind⟩, rfl⟩
    obtain ⟨i, inside, rfl⟩ := List.mem_mapIdx.1 mem
    exact ⟨.part (List.getElem?_eq_some_iff.2 ⟨inside, rfl⟩) reaches, ofKind⟩

end Sample

/-! ## Values that have types -/

theorem not_stops_of_reaches {s t : Sample} {positions : List Nat} {path : Path}
    (h : s.Reaches positions path t) (inferred : ∃ d, infer s = .ok d) :
    t.stops = false := by
  induction h with
  | here s =>
    obtain ⟨d, hd⟩ := inferred
    exact ((infer_eq_ok_iff s d).1 hd).1
  | part h _ ih =>
    obtain ⟨d, hd⟩ := inferred
    obtain ⟨-, types, found, -⟩ := (infer_eq_ok_iff _ d).1 hd
    obtain ⟨e, _, he⟩ := exists_of_mem_right found.flip (List.mem_of_getElem? h)
    exact ih ⟨e, he⟩

/-! ## The first value at which inference stops -/

/-- Where parts have no types, one of them fails and those before it do not. -/
theorem exists_of_inferParts_error {path : Path} {parts : List (Step × Sample)} {reason : Untyped}
    (h : inferParts path parts = .error reason) :
    ∃ (i : Nat) (step : Step) (s : Sample),
      parts[i]? = some (step, s) ∧ inferAt (path ++ [step]) s = .error reason ∧
      ∀ (j : Nat) (p : Step × Sample), j < i → parts[j]? = some p → ∃ d, infer p.2 = .ok d := by
  rw [inferParts_eq_mapM] at h
  obtain ⟨i, ⟨step, s⟩, hi, failed, before⟩ := exists_of_mapM_error h
  refine ⟨i, step, s, hi, failed, fun j p hj hp => ?_⟩
  obtain ⟨d, hd⟩ := before j p hj hp
  exact ⟨d, (inferAt_eq_ok_iff _ p.2 d).1 hd⟩

/-- Inference fails for the first value at which it stops. -/
theorem firstFind_of_inferAt_error {path : Path} {s : Sample} {reason : Untyped}
    (h : inferAt path s = .error reason) :
    ∃ place route t, FirstFind (· < ·) (s.FindsAt Sample.stops) place (route, t) ∧
      reason = t.whyUntyped (path ++ route) := by
  induction s using Sample.byParts generalizing path with
  | h s ih =>
    rw [inferAt_eq] at h
    cases stops : s.stops with
    | true =>
      rw [stops, if_pos rfl] at h
      cases h
      refine ⟨[], [], s, .root ⟨.here s, stops⟩, ?_⟩
      rw [List.append_nil]
    | false =>
      have failed : inferParts path s.parts = .error reason := by
        rw [stops, if_neg Bool.false_ne_true] at h
        exact map_eq_error_iff.1 h
      obtain ⟨i, step, part, hi, failed, before⟩ := exists_of_inferParts_error failed
      obtain ⟨place, route, t, first, rfl⟩ := ih _ (List.mem_of_getElem? hi) failed
      refine ⟨i :: place, step :: route, t, ?_, by rw [List.append_assoc, List.singleton_append]⟩
      -- The parts before this one have types, so nothing stops the walk within them.
      have placed (j : Nat) : s.placedParts[j]? = s.parts[j]?.map (Prod.mk j) :=
        List.getElem?_mapIdx
      have here : s.placedParts[i]? = some (i, step, part) := by
        rw [placed, hi]
        rfl
      have behind : FirstFind (· < ·) (Sample.FindsBehind Sample.stops (step, part)) place
          (step :: route, t) := first.map fun found => (step :: found.1, found.2)
      refine behind.among s.placedParts_ordered (Sample.findsAt_iff stops) here ?_
      rintro j q lt hq rest _ ⟨within, ⟨reaches, stops'⟩, rfl⟩
      rw [placed] at hq
      obtain ⟨p, hp, rfl⟩ := Option.map_eq_some_iff.1 hq
      rw [not_stops_of_reaches reaches (before j p lt hp)] at stops'
      cases stops'

/-- Inference fails exactly if the walk comes to a value at which it stops, and for the first such
value. -/
theorem infer_eq_error_iff {s : Sample} {reason : Untyped} :
    infer s = .error reason ↔ ∃ place found,
      FirstFind (· < ·) (s.FindsAt Sample.stops) place found ∧
        reason = found.2.whyUntyped found.1 := by
  constructor
  · intro h
    obtain ⟨place, route, t, first, rfl⟩ := firstFind_of_inferAt_error h
    exact ⟨place, (route, t), first, rfl⟩
  · rintro ⟨place, ⟨route, t⟩, first, rfl⟩
    cases h : infer s with
    | ok d =>
      have stops : t.stops = true := first.here.2
      rw [not_stops_of_reaches first.here.1 ⟨d, h⟩] at stops
      cases stops
    | error reason =>
      obtain ⟨place', route', t', first', rfl⟩ := firstFind_of_inferAt_error h
      obtain rfl := first.unique first'
      obtain ⟨rfl, rfl⟩ := first.here.1.unique first'.here.1
      rfl

/-- A value at which inference stops keeps it from finding a type. -/
theorem exists_firstFind_of_findsAt {s : Sample} {place : List Nat} {found : Path × Sample}
    (h : s.FindsAt Sample.stops place found) :
    ∃ place' found', FirstFind (· < ·) (s.FindsAt Sample.stops) place' found' := by
  cases inferred : infer s with
  | error reason =>
    obtain ⟨place', found', first, -⟩ := infer_eq_error_iff.1 inferred
    exact ⟨place', found', first⟩
  | ok d =>
    have stops := h.2
    rw [not_stops_of_reaches h.1 ⟨d, inferred⟩] at stops
    cases stops

/-- The error for a value that can be called tells of the first of these. -/
theorem firstFind_of_infer_unsupported {s : Sample} {e : Unsupported}
    (h : infer s = .error (.unsupported e)) :
    ∃ place t, FirstFind (· < ·) (s.FindsAt Sample.stops) place (e.path, t) ∧
      FirstFind (· < ·) (s.FindsAt Sample.isOffender) place (e.path, t) ∧
      e = .found e.path t.nature := by
  obtain ⟨place, ⟨route, t⟩, first, why⟩ := infer_eq_error_iff.1 h
  obtain ⟨offends, rfl⟩ := Sample.whyUntyped_eq_unsupported_iff.1 why.symm
  refine ⟨place, t, first, first.of_subset ?_ ⟨first.here.1, offends⟩, rfl⟩
  rintro place' found' ⟨reaches, offends'⟩
  exact ⟨reaches, Sample.stops_iff.2 (.inl offends')⟩

/-! ## What the error says -/

/-- The last name on a path, if there is any. -/
def Path.LastName (path : Path) : Option Text → Prop
  | none => ∀ name, Step.name name ∉ path
  | some name => ∃ before after, path = before ++ .name name :: after ∧
      ∀ other, Step.name other ∉ after

theorem Path.lastName_nearestKey (path : Path) : path.LastName path.nearestKey := by
  cases key : path.nearestKey with
  | none =>
    intro name h
    have none := List.findSome?_eq_none_iff.1 key _ (List.mem_reverse.2 h)
    cases none
  | some name =>
    obtain ⟨after, step, before, whole, named, others⟩ := List.findSome?_eq_some_iff.1 key
    refine ⟨before.reverse, after.reverse, ?_, fun other h => ?_⟩
    · cases step with
      | name t =>
        cases named
        rw [← List.reverse_inj, whole]
        simp
      | _ => cases named
    · have none := others _ (List.mem_reverse.1 h)
      cases none

/-- Inference fails for a value that can be called exactly if the walk comes to one, and before it
to no list or tuple that counts as true by its nature and has no item; the error then gives the path
to the first value that can be called in depth-first order, the name of its type, and the last name
on the path. Inference fails without a word exactly if such a list or tuple is the first value at
which it stops. -/
theorem infer_error_iff_offender (s : Sample) :
    ((∃ e, infer s = .error (.unsupported e)) ↔
      ∃ place found, s.FindsAt Sample.isOffender place found ∧
        ∀ place' found', s.FindsAt Sample.isBarren place' found' →
          ¬ List.Lex (· < ·) place' place) ∧
    (∀ e, infer s = .error (.unsupported e) →
      ∃ place t, FirstFind (· < ·) (s.FindsAt Sample.isOffender) place (e.path, t) ∧
        e.typeName = t.typeName ∧ e.path.LastName e.key) ∧
    (infer s = .error .noItem ↔
      ∃ place found, FirstFind (· < ·) (s.FindsAt Sample.stops) place found ∧
        found.2.isBarren = true) := by
  refine ⟨⟨?_, ?_⟩, ?_, ⟨?_, ?_⟩⟩
  · rintro ⟨e, h⟩
    obtain ⟨place, t, first, ofOffender, -⟩ := firstFind_of_infer_unsupported h
    refine ⟨place, (e.path, t), ofOffender.here, fun place' found' barren => ?_⟩
    exact first.not_before ⟨barren.1, Sample.stops_iff.2 (.inr barren.2)⟩
  · rintro ⟨place, found, ⟨reaches, offends⟩, before⟩
    have stops : s.FindsAt Sample.stops place found := ⟨reaches, Sample.stops_iff.2 (.inl offends)⟩
    obtain ⟨place', found', first⟩ := exists_firstFind_of_findsAt stops
    -- What stops the walk first is not barren: nothing barren comes before the offender.
    have offends' : found'.2.isOffender = true := by
      refine (Sample.stops_iff.1 first.here.2).resolve_right fun barren => ?_
      rcases first.first place found stops with rfl | later
      · obtain ⟨-, same⟩ := reaches.unique first.here.1
        have none := Sample.isOffender_of_isBarren barren
        rw [← same, offends] at none
        cases none
      · exact before place' found' ⟨first.here.1, barren⟩ later
    exact ⟨_, infer_eq_error_iff.2 ⟨place', found', first,
      (Sample.whyUntyped_eq_unsupported_iff.2 ⟨offends', rfl⟩).symm⟩⟩
  · intro e h
    obtain ⟨place, t, -, first, found⟩ := firstFind_of_infer_unsupported h
    have key : e.key = e.path.nearestKey := congrArg Unsupported.key found
    exact ⟨place, t, first, congrArg Unsupported.typeName found,
      key ▸ Path.lastName_nearestKey e.path⟩
  · intro h
    obtain ⟨place, found, first, why⟩ := infer_eq_error_iff.1 h
    exact ⟨place, found, first, (Sample.whyUntyped_eq_noItem_iff first.here.2).1 why.symm⟩
  · rintro ⟨place, found, first, barren⟩
    exact infer_eq_error_iff.2
      ⟨place, found, first, ((Sample.whyUntyped_eq_noItem_iff first.here.2).2 barren).symm⟩

/-- A list that counts as true and holds nothing, before a function: the walk comes to the function,
which is the only value that can be called, and inference does not fail for it. -/
theorem infer_breaks_off_before_offender :
    let truthy : Sample := .sequence .list { Nature.named "Truthy" with truth := some true } []
    let function : Sample :=
      .other { Nature.named "builtin_function_or_method" with callable := true }
    (Sample.list [truthy, function]).FindsAt Sample.isOffender [1] ([.index 1], function) ∧
      infer (.list [truthy, function]) = .error .noItem ∧
      infer (.list [.list [], function]) =
        .error (.unsupported
          ⟨none, [.index 1], Text.ofString "builtin_function_or_method"⟩) := by
  intro truthy function
  exact ⟨⟨.part rfl (.here function), rfl⟩, rfl, rfl⟩

/-- A value under a key that is overwritten is still come to. -/
example :
    let callable := Sample.other { Nature.named "function" with callable := true }
    infer (.dict [(.ofInt 1, callable), (.ofText (Text.ofString "1"), .null)]) =
      .error (.unsupported
        ⟨some (Text.ofString "1"), [.name (Text.ofString "1")], Text.ofString "function"⟩) := by
  rfl

end SampleTypes
