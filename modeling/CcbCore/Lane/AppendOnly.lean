import CcbCore.Lane.Segment

/-!
# Guarded lanes are append-only

A range that `validate_active_writer_range` accepts keeps the files of its base and adds messages of
the lane's writer only. Their ids are all different, and different from those of the base and
of the historical lane, exactly when no commit adds the id of a message whose name
git quotes in the listing of the parent or of the historical lane (`append_only_iff`): such a
message is none for the code (`quoted_repeat`).
-/

namespace CcbCore.Lane

open CcbCore.Python CcbCore.Git CcbCore.Message CcbCore.Raising

variable {π : Type} [DecidableEq π] [FileName π] {runtime : Runtime} {objects : Objects π} {lane : WriterLane}
  {historical : Option String} {base head : String} {commits reserved : List String}

/-- The head of an identity's historical lane. -/
def historicalCommit (cutover : Option Json) (identity : String) : Option String :=
  match cutover with
  | some (.object raw) =>
    match Json.get raw "historical_writer_lanes" with
    | .object historical =>
      match Json.get historical identity with
      | .object record =>
        match Json.get record "head_sha" with
        | .string headSha => some (lower headSha)
        | _ => none
      | _ => none
    | _ => none
  | _ => none

/-- A message that the base does not have. -/
structure IsNew (runtime : Runtime) (objects : Objects π) (base head : String) (name : π) (id : String) : Prop where
  hasId : HasId runtime objects head name id
  absent : objects.fileAt base name = none

/-- What a guarded range keeps and adds. -/
structure AppendOnly (runtime : Runtime) (objects : Objects π) (lane : WriterLane) (historical : Option String)
    (base head : String) : Prop where
  kept : ∀ name file, objects.fileAt base name = some file → objects.fileAt head name = some file
  added : ∀ name file, objects.fileAt head name = some file → objects.fileAt base name = none →
    ∃ id, Accepted runtime objects lane head name id
  distinct : ∀ name name' id, IsNew runtime objects base head name id → IsNew runtime objects base head name' id → name = name'
  fresh : ∀ name name' id, IsNew runtime objects base head name id → ¬ HasId runtime objects base name' id
  unreserved : ∀ commit, historical = some commit → ∀ name name' id, IsNew runtime objects base head name id →
    ¬ HasId runtime objects commit name' id

/-- No commit adds the id of a message whose name git quotes, in the tree of its parent or of the historical lane. -/
def NoQuotedRepeat (runtime : Runtime) (objects : Objects π) (historical : Option String) (base head : String) : Prop :=
  ∀ commit ∈ objects.graph.revList base head, ∀ parent, objects.graph.parents commit = some [parent] →
    ∀ name name' id, IsNew runtime objects parent commit name id → isQuoted name' = true →
      ¬ HasId runtime objects parent name' id ∧ ∀ c, historical = some c → ¬ HasId runtime objects c name' id

/-! ### Along a range -/

/-- A range divides at each of its commits. -/
theorem Segment.cut {commit : String} (h : Segment runtime objects lane reserved base commits head) (hmem : commit ∈ commits) :
    ∃ before after parent, Segment runtime objects lane reserved base before parent ∧
      Appends runtime objects lane reserved parent commit ∧ Segment runtime objects lane reserved commit after head := by
  induction h with
  | nil => cases hmem
  | @snoc commits parent commit' hsegment happends ih =>
    obtain hmem | hmem := List.mem_append.mp hmem
    · obtain ⟨before, after, parent', hbefore, happends', hafter⟩ := ih hmem
      exact ⟨before, after ++ [commit'], parent', hbefore, happends', hafter.snoc happends⟩
    · obtain rfl := List.mem_singleton.mp hmem
      exact ⟨commits, [], parent, hsegment, happends, .nil⟩

theorem Segment.hasId {name : π} {id : String} (h : Segment runtime objects lane reserved base commits head)
    (hid : HasId runtime objects base name id) : HasId runtime objects head name id := by
  obtain ⟨file, hfile, hdeclared⟩ := Option.bind_eq_some_iff.mp hid.declared
  exact ⟨hid.message, by rw [idAt, h.kept hfile]; exact hdeclared⟩

/-- A message that a commit adds is there with its id, which is not reserved, and not one of the parent's
under a name that git does not quote. -/
theorem Appends.new {parent commit : String} {name : π} {id : String} (h : Appends runtime objects lane reserved parent commit)
    (hnew : IsNew runtime objects parent commit name id) :
    id ∉ reserved ∧ ∀ name', HasId runtime objects parent name' id → isQuoted name' = true := by
  obtain ⟨file, hfile, -⟩ := Option.bind_eq_some_iff.mp hnew.hasId.declared
  obtain ⟨id', haccepted, hreserved, hquoted⟩ := h.added name file hfile hnew.absent
  obtain rfl := Option.some.inj (haccepted.hasId.declared.symm.trans hnew.hasId.declared)
  exact ⟨hreserved, hquoted⟩

/-- A new message was added by one of the commits. -/
theorem Segment.new {name : π} {id : String} (h : Segment runtime objects lane reserved base commits head)
    (hnew : IsNew runtime objects base head name id) :
    ∃ before parent commit, Segment runtime objects lane reserved base before parent ∧
      Appends runtime objects lane reserved parent commit ∧ commit ∈ commits ∧ IsNew runtime objects parent commit name id := by
  obtain ⟨file, hfile, hdeclared⟩ := Option.bind_eq_some_iff.mp hnew.hasId.declared
  obtain ⟨before, parent, commit, hbefore, happends, hmem, hnone, hcommit⟩ := h.added hfile hnew.absent
  exact ⟨before, parent, commit, hbefore, happends, hmem, ⟨hnew.hasId.message, by rw [idAt, hcommit]; exact hdeclared⟩, hnone⟩

/-- New messages have different ids, when no commit repeats an id of its parent's tree. -/
theorem Segment.distinct (h : Segment runtime objects lane reserved base commits head)
    (hno : ∀ commit ∈ commits, ∀ parent, objects.graph.parents commit = some [parent] → ∀ name name' id,
      IsNew runtime objects parent commit name id → isQuoted name' = true → ¬ HasId runtime objects parent name' id) :
    ∀ name name' id, IsNew runtime objects base head name id → IsNew runtime objects base head name' id → name = name' := by
  induction h with
  | nil =>
    intro name name' id hnew _
    obtain ⟨file, hfile, -⟩ := Option.bind_eq_some_iff.mp hnew.hasId.declared
    rw [hnew.absent] at hfile
    cases hfile
  | @snoc commits parent commit hsegment happends ih =>
    intro name name' id hnew hnew'
    replace ih := ih fun commit hmem => hno commit (List.mem_append_left _ hmem)
    have hparent : ∀ {name}, IsNew runtime objects base commit name id →
        IsNew runtime objects base parent name id ∨ IsNew runtime objects parent commit name id := by
      intro name hnew
      cases hfile : objects.fileAt parent name with
      | none => exact .inr ⟨hnew.hasId, hfile⟩
      | some file =>
        have hdeclared := hnew.hasId.declared
        rw [idAt, happends.kept name file hfile] at hdeclared
        exact .inl ⟨⟨hnew.hasId.message, by rw [idAt, hfile]; exact hdeclared⟩, hnew.absent⟩
    have hrepeat : ∀ {name name'}, IsNew runtime objects parent commit name id → ¬ HasId runtime objects parent name' id :=
      fun hadded hold => hno commit (by simp) parent happends.parents _ _ id hadded ((happends.new hadded).2 _ hold) hold
    obtain hold | hadded := hparent hnew
    · obtain hold' | hadded' := hparent hnew'
      · exact ih name name' id hold hold'
      · exact absurd hold.hasId (hrepeat hadded')
    · obtain hold' | hadded' := hparent hnew'
      · exact absurd hold'.hasId (hrepeat hadded)
      · exact happends.distinct name name' id hadded.hasId hadded'.hasId hadded.absent hadded'.absent

theorem Accepted.mono {commit : String} {name : π} {id : String} {file : String × Bytes}
    (h : Accepted runtime objects lane commit name id) (hfile : objects.fileAt commit name = some file)
    (hhead : objects.fileAt head name = some file) : Accepted runtime objects lane head name id := by
  obtain ⟨file', parsed, hfile', hparsed, hwriter⟩ := h.writer
  obtain rfl := Option.some.inj (hfile.symm.trans hfile')
  have hdeclared := h.hasId.declared
  rw [idAt, hfile] at hdeclared
  exact ⟨h.text, ⟨h.hasId.message, by rw [idAt, hhead]; exact hdeclared⟩, h.namespaced, file, parsed, hhead, hparsed, hwriter⟩

/-- A segment is append-only exactly when no id under a quoted name is repeated. -/
theorem Segment.appendOnly_iff (h : Segment runtime objects lane reserved base (objects.graph.revList base head) head)
    (hreserved : objects.graph.revList base head ≠ [] → ∀ c, historical = some c → ∀ name id, HasId runtime objects c name id →
      isQuoted name = false → id ∈ reserved) :
    AppendOnly runtime objects lane historical base head ↔ NoQuotedRepeat runtime objects historical base head := by
  constructor
  · intro happend commit hcommit parent hparents name name' id hnew _
    obtain ⟨before, after, parent', hbefore, happends, hafter⟩ := h.cut hcommit
    obtain rfl : parent = parent' := by simpa using hparents.symm.trans happends.parents
    have habsent : objects.fileAt base name = none := by
      cases hfile : objects.fileAt base name with
      | none => rfl
      | some file =>
        have := hbefore.kept hfile
        rw [hnew.absent] at this
        cases this
    have hnewHead : IsNew runtime objects base head name id := ⟨hafter.hasId hnew.hasId, habsent⟩
    refine ⟨fun hold => ?_, fun c hc => happend.unreserved c hc name name' id hnewHead⟩
    obtain ⟨file, hfile, hdeclared⟩ := Option.bind_eq_some_iff.mp hold.declared
    cases hbase : objects.fileAt base name' with
    | some file' =>
      obtain rfl := Option.some.inj ((hbefore.kept hbase).symm.trans hfile)
      exact happend.fresh name name' id hnewHead ⟨hold.message, by rw [idAt, hbase]; exact hdeclared⟩
    | none =>
      have holdHead : HasId runtime objects head name' id :=
        hafter.hasId ((Segment.nil.snoc happends).hasId hold)
      obtain rfl := happend.distinct name name' id hnewHead ⟨holdHead, hbase⟩
      rw [hnew.absent] at hfile
      cases hfile
  · intro hno
    refine ⟨fun name file => h.kept, ?_, ?_, ?_, ?_⟩
    · intro name file hfile hnone
      obtain ⟨before, parent, commit, -, happends, hmem, hparent, hcommit⟩ := h.added hfile hnone
      obtain ⟨id, haccepted, -⟩ := happends.added name file hcommit hparent
      exact ⟨id, haccepted.mono hcommit hfile⟩
    · exact h.distinct fun commit hmem parent hparents name name' id hnew hquoted =>
        (hno commit hmem parent hparents name name' id hnew hquoted).1
    · intro name name' id hnew hold
      obtain ⟨before, parent, commit, hbefore, happends, hmem, hadded⟩ := h.new hnew
      have hparent := hbefore.hasId hold
      exact (hno commit hmem parent happends.parents name name' id hadded ((happends.new hadded).2 name' hparent)).1 hparent
    · intro c hc name name' id hnew hold
      obtain ⟨before, parent, commit, hbefore, happends, hmem, hadded⟩ := h.new hnew
      cases hquoted : isQuoted name' with
      | true => exact (hno commit hmem parent happends.parents name name' id hadded hquoted).2 c hc hold
      | false => exact (happends.new hadded).1 (hreserved (List.ne_nil_of_mem hmem) c hc name' id hold hquoted)

/-! ### The guard -/

theorem historicalMessageIds_ok {cutover : Option Json} {identity : String} {ids : List String}
    (h : historicalMessageIds runtime objects cutover identity = .ok ids) {c : String}
    (hc : historicalCommit cutover identity = some c) : messageIdsAtCommit runtime objects c = .ok ids := by
  unfold historicalCommit at hc
  split at hc <;> try cases hc
  split at hc <;> try cases hc
  split at hc <;> try cases hc
  split at hc <;> try cases hc
  next _ _ _ _ hhistorical _ _ hrecord _ headSha hhead =>
    simp only [historicalMessageIds, hhistorical, hrecord, hhead] at h
    split at h
    · next heq =>
      cases heq
      split at h
      · exact h
      · cases h
    · cases h

/-- **What `validate_active_writer_range` accepts is append-only with unique ids exactly when no id of a message
whose name git quotes is repeated.** -/
theorem append_only_iff {topology : Topology} {cutover : Option Json} {identity : String}
    (h : validateActiveWriterRange runtime objects topology cutover identity base head = .ok commits) :
    ∃ lane, topology.active.lookup identity = some lane ∧
      (AppendOnly runtime objects lane (historicalCommit cutover identity) base head ↔
        NoQuotedRepeat runtime objects (historicalCommit cutover identity) base head) := by
  unfold validateActiveWriterRange at h
  cases hlane : topology.active.lookup identity with
  | none =>
    rw [hlane] at h
    cases h
  | some lane =>
    refine ⟨lane, rfl, ?_⟩
    rw [hlane] at h
    dsimp only at h
    split at h
    · next heq =>
      subst heq
      have hnil : objects.graph.revList base base = [] := revList_of_line .nil
      have hsegment : Segment runtime objects lane [] base (objects.graph.revList base base) base := by
        rw [hnil]
        exact .nil
      exact hsegment.appendOnly_iff fun hne => absurd hnil hne
    · split at h
      · cases h
      · next hancestor =>
        rw [Bool.not_eq_false] at hancestor
        split at h
        · cases h
        · simp only [except_bind_ok, except_forM_ok] at h
          obtain ⟨ids, hids, _, hcommits, -⟩ := h
          refine (Segment.of_range hancestor hcommits).appendOnly_iff fun _ c hc name id hid hquoted => ?_
          exact mem_messageIdsAtCommit (historicalMessageIds_ok hids hc) hid hquoted

/-! ### A repeated id -/

def firstCommit : String := String.ofList (List.replicate 40 'a')

def secondCommit : String := String.ofList (List.replicate 40 'b')

def thirdCommit : String := String.ofList (List.replicate 40 'c')

/-- A repository of three commits in a line, all of whose files are one message. -/
def lineObjects (first second third : Files String) : Objects String where
  blobs _ := some (encode "message_id: alpha-1\nwriter: alpha\n".toList)
  trees t := some (if t = "first" then first else if t = "second" then second else third)
  graph :=
    { parents := fun c =>
        if c = firstCommit then some [] else if c = secondCommit then some [firstCommit]
        else if c = thirdCommit then some [secondCommit] else none
      generation := fun c => if c = firstCommit then 0 else if c = secondCommit then 1 else 2
      parents_isSome := by
        intro c ps p hc hp
        split_ifs at hc <;> cases hc
        · cases hp
        · obtain rfl := List.mem_singleton.mp hp
          rfl
        · obtain rfl := List.mem_singleton.mp hp
          rfl
      generation_lt := by
        have h₁ : secondCommit ≠ firstCommit := by decide
        have h₂ : thirdCommit ≠ firstCommit := by decide
        have h₃ : thirdCommit ≠ secondCommit := by decide
        intro c ps p hc hp
        split_ifs at hc <;> cases hc <;> simp_all }
  treeOf c := if c = firstCommit then "first" else if c = secondCommit then "second" else "third"
  committedAt _ := "2026-01-01T00:00:00+00:00"
  trees_isSome _ := rfl
  blobs_isSome _ _ := rfl
  isHex_name := by
    intro c hc
    simp only [CommitGraph.Known] at hc
    split_ifs at hc with h₁ h₂ h₃
    · rw [h₁]
      decide
    · rw [h₂]
      decide
    · rw [h₃]
      decide
    · cases hc

def sampleRuntime : Runtime := .ascii

def sampleTopology : Topology := [("alpha", ⟨"alpha", "alpha", "bus/alpha-v1", .active⟩)]

/-- The files of one tree under some paths. -/
def filesOf (paths : List String) : Files String := paths.foldl (fun files path => files.insert path "blob") ∅

/-- A message, and another with its id in the next commit. -/
def repeatingObjects : Objects String :=
  lineObjects (filesOf ["messages/\"1\".md"]) (filesOf ["messages/\"1\".md", "messages/2.md"]) ∅

/-- A message in the next commit. -/
def plainObjects : Objects String := lineObjects ∅ (filesOf ["messages/1.md"]) ∅

theorem plain_accepted : validateActiveWriterRange sampleRuntime plainObjects sampleTopology none "alpha" firstCommit secondCommit =
    .ok [secondCommit] := by decide +kernel

theorem append_only_iff_plain :
    ∃ lane, sampleTopology.active.lookup "alpha" = some lane ∧
      (AppendOnly sampleRuntime plainObjects lane (historicalCommit none "alpha") firstCommit secondCommit ↔
        NoQuotedRepeat sampleRuntime plainObjects (historicalCommit none "alpha") firstCommit secondCommit) :=
  append_only_iff plain_accepted

theorem repeating_accepted :
    validateActiveWriterRange sampleRuntime repeatingObjects sampleTopology none "alpha" firstCommit secondCommit =
      .ok [secondCommit] := by decide +kernel

/-- The message under the quoted name has the id of the new one. -/
theorem quoted_repeat :
    ¬ ∀ commits, validateActiveWriterRange sampleRuntime repeatingObjects sampleTopology none "alpha" firstCommit secondCommit =
        .ok commits → ∀ lane, sampleTopology.active.lookup "alpha" = some lane →
          AppendOnly sampleRuntime repeatingObjects lane (historicalCommit none "alpha") firstCommit secondCommit := by
  intro h
  have happend := h _ repeating_accepted _ rfl
  exact happend.fresh "messages/2.md" "messages/\"1\".md" "alpha-1" ⟨⟨by decide +kernel, by decide +kernel⟩, by decide +kernel⟩
    ⟨by decide +kernel, by decide +kernel⟩

end CcbCore.Lane
