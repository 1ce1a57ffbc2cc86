import SampleTypes.Proofs.Inference.Offenders
import SampleTypes.Proofs.Inference.PathTexts

/-!
# What the text of a path denotes

A path leads from a value to what is held in it, by the indices of items and the texts of keys. Two
keys of a mapping may have one text, and then a path leads to more than one place. Where keys have
different texts everywhere, a path leads to one place at most; where they are plain names besides,
so does the text of a path, and what is told of a value that can be called is told of one place.

## Main definitions

* `Sample.members`, `Sample.Holds` — what is held in a value, in any container and at any depth
* `Sample.PlainlyKeyed` — values whose keys are plain names, and different ones in each mapping
* `Sample.Denotes`, `Sample.Tells` — the places that the text of a path, and a message, are about

## Main results

* `Sample.Holds.unique` — a path leads to one place
* `format_denotes_one_place` — so do the texts and the messages of inference
-/

namespace SampleTypes

namespace Sample

/-- What a value holds with the steps to it, whether inference looks into the value or not. -/
def members : Sample → List (Step × Sample)
  | .sequence _ _ items => numbered 0 items
  | .mapping _ _ entries => named entries
  | _ => []

/-- A value holds another at the given positions, to which a path leads. -/
inductive Holds : Sample → List Nat → Path → Sample → Prop
  | here (s : Sample) : Holds s [] [] s
  | member {s part t : Sample} {i : Nat} {step : Step} {place : List Nat} {path : Path}
      (h : s.members[i]? = some (step, part)) (rest : Holds part place path t) :
      Holds s (i :: place) (step :: path) t

/-- The texts of the keys of a mapping. -/
def keyNames : Sample → List Text
  | .mapping _ _ entries => entries.map fun e => e.1.shown
  | _ => []

/-- The keys of all mappings in a value are plain names, and no two of a mapping have one text. -/
inductive PlainlyKeyed : Sample → Prop
  | intro {s : Sample} (plain : ∀ t ∈ s.keyNames, Path.IsPlainName t)
      (distinct : s.keyNames.Nodup) (members : ∀ p ∈ s.members, PlainlyKeyed p.2) : PlainlyKeyed s

/-- The text of a path leads to a place in a value. -/
def Denotes (s : Sample) (text : Text) (place : List Nat) : Prop :=
  ∃ path t, s.Holds place path t ∧ path.format = text

/-- A message is what is said of a value that was found at a place in another. -/
def Tells (s : Sample) (message : Text) (place : List Nat) : Prop :=
  ∃ path t, s.Holds place path t ∧ (Unsupported.found path t.nature).message = message

/-! ## What the walk comes to -/

/-- The walk of inference goes through what is held, or through nothing of it. -/
theorem parts_eq_members_or_nil (s : Sample) : s.parts = s.members ∨ s.parts = [] := by
  cases s with
  | sequence kind n items =>
    cases kind with
    | run => exact .inr rfl
    | _ =>
      simp only [parts, members]
      split_ifs <;> simp
  | mapping kind n entries =>
    simp only [parts, members]
    split_ifs <;> simp
  | _ => exact .inl rfl

theorem Reaches.holds {s t : Sample} {place : List Nat} {path : Path}
    (h : s.Reaches place path t) : s.Holds place path t := by
  induction h with
  | here s => exact .here s
  | @part s part t i step place path h _ ih =>
    rcases s.parts_eq_members_or_nil with same | none
    · exact .member (same ▸ h) ih
    · rw [none] at h
      cases h

/-! ## Places and paths -/

theorem mem_numbered {p : Step × Sample} {items : List Sample} {index : Nat}
    (h : p ∈ numbered index items) : ∃ i : Nat, index ≤ i ∧ p.1 = .index i := by
  induction items generalizing index with
  | nil => cases h
  | cons s rest ih =>
    rcases List.mem_cons.1 h with rfl | h
    · exact ⟨index, Nat.le_refl _, rfl⟩
    · obtain ⟨i, later, step⟩ := ih h
      exact ⟨i, by omega, step⟩

theorem nodup_steps_numbered (index : Nat) (items : List Sample) :
    ((numbered index items).map Prod.fst).Nodup := by
  induction items generalizing index with
  | nil => exact List.nodup_nil
  | cons s rest ih =>
    refine List.nodup_cons.2 ⟨fun again => ?_, ih (index + 1)⟩
    obtain ⟨p, mem, step⟩ := List.mem_map.1 again
    obtain ⟨i, later, step'⟩ := mem_numbered mem
    have same : (i : Int) = index := Step.index.inj (step'.symm.trans step)
    omega

theorem steps_named (entries : List (Sample × Sample)) :
    (named entries).map Prod.fst = (entries.map fun e => e.1.shown).map Step.name := by
  simp [named]

/-- Different texts of keys make different steps. -/
theorem nodup_steps_members {s : Sample} (h : s.keyNames.Nodup) :
    (s.members.map Prod.fst).Nodup := by
  cases s with
  | sequence kind n items => exact nodup_steps_numbered 0 items
  | mapping kind n entries =>
    rw [members, steps_named]
    exact h.map fun _ _ => Step.name.inj
  | _ => exact List.nodup_nil

theorem mem_keyNames_of_members {s part : Sample} {t : Text} (h : (.name t, part) ∈ s.members) :
    t ∈ s.keyNames := by
  cases s with
  | sequence kind n items =>
    obtain ⟨i, -, step⟩ := mem_numbered h
    cases step
  | mapping kind n entries =>
    have step : Step.name t ∈ (named entries).map Prod.fst := List.mem_map.2 ⟨_, h, rfl⟩
    rw [steps_named] at step
    obtain ⟨_, mem, same⟩ := List.mem_map.1 step
    exact Step.name.inj same ▸ mem
  | _ => cases h

variable {s t u : Sample} {place place' : List Nat} {path : Path}

theorem Holds.plain (keyed : s.PlainlyKeyed) (h : s.Holds place path t) : path.Plain := by
  induction h with
  | here s => exact nofun
  | member h _ ih =>
    obtain ⟨plain, _, members⟩ := keyed
    have mem := List.mem_of_getElem? h
    refine Path.plain_cons.2 ⟨?_, ih (members _ mem)⟩
    rintro name rfl
    exact plain name (mem_keyNames_of_members mem)

/-- A path leads to one place. -/
theorem Holds.unique (keyed : s.PlainlyKeyed) (h : s.Holds place path t)
    (h' : s.Holds place' path u) : place = place' ∧ t = u := by
  induction h generalizing place' with
  | here s =>
    cases h'
    exact ⟨rfl, rfl⟩
  | @member s part t i step place path h _ ih =>
    cases h' with
    | @member _ part' _ j _ place' _ h' rest' =>
      obtain ⟨_, distinct, members⟩ := keyed
      -- The steps from a value to what it holds do not repeat, so the first positions are the same.
      have stepI : (s.members.map Prod.fst)[i]? = some step := by rw [List.getElem?_map, h]; rfl
      have stepJ : (s.members.map Prod.fst)[j]? = some step := by rw [List.getElem?_map, h']; rfl
      have inside : i < (s.members.map Prod.fst).length := (List.getElem?_eq_some_iff.1 stepI).1
      obtain rfl : i = j :=
        (List.getElem?_inj inside (nodup_steps_members distinct)).1 (stepI.trans stepJ.symm)
      cases h.symm.trans h'
      obtain ⟨rfl, rfl⟩ := ih (members _ (List.mem_of_getElem? h)) rest'
      exact ⟨rfl, rfl⟩

/-- The text of a path that leads somewhere denotes the place it leads to and no other. -/
theorem Holds.denotes_iff (keyed : s.PlainlyKeyed) (h : s.Holds place path t) :
    s.Denotes path.format place' ↔ place' = place := by
  constructor
  · rintro ⟨path', u, h', same⟩
    obtain rfl := Path.format_inj (h'.plain keyed) (h.plain keyed) same
    exact (h'.unique keyed h).1
  · rintro rfl
    exact ⟨path, t, h, rfl⟩

/-- So does the message, if it names the path. -/
theorem Holds.tells_iff (keyed : s.PlainlyKeyed) (h : s.Holds place path t)
    (named : path.nearestKey ≠ none) :
    s.Tells (Unsupported.found path t.nature).message place' ↔ place' = place := by
  constructor
  · rintro ⟨path', u, h', same⟩
    obtain rfl := Unsupported.message_inj (h.plain keyed) (h'.plain keyed) named same.symm
    exact (h'.unique keyed h).1
  · rintro rfl
    exact ⟨path, t, h, rfl⟩

end Sample

/-- Paths of plain names are told apart by their texts, whatever indices stand in them. So where
inference fails for a value that can be called, in a value whose keys are plain names, and different
ones in each mapping, the text of the path in the error denotes the place of the first value that
can be called and no other place in the value; and the message about it, if it names the path, is
not what would be said of any other place. -/
theorem format_denotes_one_place :
    (∀ p q : Path, p.Plain → q.Plain → p.format = q.format → p = q) ∧
    ∀ s : Sample, s.PlainlyKeyed → ∀ e, infer s = .error (.unsupported e) →
      ∃ place t, FirstFind (· < ·) (s.FindsAt Sample.isOffender) place (e.path, t) ∧
        (∀ other, s.Denotes e.path.format other ↔ other = place) ∧
        (e.key ≠ none → ∀ other, s.Tells e.message other ↔ other = place) := by
  refine ⟨fun p q => Path.format_inj, fun s keyed e failed => ?_⟩
  obtain ⟨place, t, -, first, found⟩ := firstFind_of_infer_unsupported failed
  have holds : s.Holds place e.path t := first.here.1.holds
  refine ⟨place, t, first, fun other => holds.denotes_iff keyed, fun named other => ?_⟩
  have key : e.key = e.path.nearestKey := congrArg Unsupported.key found
  rw [congrArg Unsupported.message found]
  exact holds.tells_iff keyed (key ▸ named)

/-- The words of a message stand in a name as well, and a number is a key. -/
theorem format_denotes_one_place_in_list :
    let callable : Sample := .other { Nature.named "function" with callable := true }
    let inner : Sample := .dict [(.ofText (Text.ofString "k' at path "), callable)]
    let s : Sample := .dict [(.ofInt 1, .list [.null, inner])]
    let path : Path := [.name (Text.ofString "1"), .index 1, .name (Text.ofString "k' at path ")]
    path.format = Text.ofString "1[1].k' at path " ∧
      infer s = .error (.unsupported
        ⟨some (Text.ofString "k' at path "), path, Text.ofString "function"⟩) ∧
      s.PlainlyKeyed ∧ ∀ other, s.Denotes path.format other ↔ other = [0, 1, 0] := by
  intro callable inner s path
  have leaf {t : Sample} (keys : t.keyNames = []) (members : t.members = []) : t.PlainlyKeyed :=
    .intro (keys ▸ nofun) (keys ▸ List.nodup_nil) (members ▸ nofun)
  have keyedInner : inner.PlainlyKeyed :=
    .intro (by decide) (by decide) (List.forall_mem_singleton.2 (leaf rfl rfl))
  have keyed : s.PlainlyKeyed :=
    .intro (by decide) (by decide) (List.forall_mem_singleton.2 (.intro nofun List.nodup_nil
      (List.forall_mem_cons.2 ⟨leaf rfl rfl, List.forall_mem_singleton.2 keyedInner⟩)))
  have failed : infer s = .error (.unsupported
      ⟨some (Text.ofString "k' at path "), path, Text.ofString "function"⟩) := rfl
  refine ⟨by decide, failed, keyed, fun other => ?_⟩
  obtain ⟨place, t, -, denotes, -⟩ := format_denotes_one_place.2 s keyed _ failed
  have here : s.Denotes path.format [0, 1, 0] :=
    ⟨path, callable, .member rfl (.member rfl (.member rfl (.here _))), rfl⟩
  rw [denotes, (denotes _).1 here]

end SampleTypes
