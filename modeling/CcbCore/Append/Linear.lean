import CcbCore.Append.Backend
import CcbCore.Append.Effects
import CcbCore.Library.Interference

/-!
# The linear history of a lane

Any number of appenders, their calls interleaved in any order, and dropped at any
time. What an appender has checked at the head it expects stays true for as long as
the head is that head (`Prepared.stable`), and a fast-forward to its candidate is
possible only from there: so the ref moves only from the head an append expects, to a
commit that adds one message to what the lane then is (`promise_update`), and the lane
is extended in every run (`lane_linear`).
-/

namespace CcbCore.Append

open CcbCore.Python CcbCore.Git

variable {objects objects' : Objects String} {site : Site} {repo repo' : Repo} {entries entries' : List Entry} {entry : Entry}
variable {root head parent : String} {before : List String}

/-! ### Lanes -/

theorem Adds.mono (h : objects.Extends objects') (hadds : Adds objects parent entry) : Adds objects' parent entry := by
  obtain ⟨hparents, ⟨files, blob, hparent, hnone, hcommit, hblob⟩, hann⟩ := hadds
  exact ⟨h.graph _ _ hparents, ⟨files, blob, h.treeAt hparent, hnone, h.treeAt hcommit, h.blobs hblob⟩, hann⟩

theorem Lane.mono (h : objects.Extends objects') (hlane : Lane objects root head entries) :
    Lane objects' root head entries := by
  induction hlane with
  | root => exact .root
  | append _ hadds ih => exact ih.append (hadds.mono h)

theorem Lane.ancestor (h : Lane objects root head entries) : objects.graph.Ancestor root head := by
  induction h with
  | root => exact .refl _
  | append _ hadds ih => exact (CommitGraph.ancestor_iff_of_parents hadds.parents).mpr (.inr ih)

/-- A commit adds one message. -/
theorem Adds.unique {entry' : Entry} (h : Adds objects parent entry) (h' : Adds objects parent entry')
    (hcommit : entry.commitSha = entry'.commitSha) : entry = entry' := by
  obtain ⟨-, ⟨files, blob, hparent, hnone, htree, hblob⟩, writer, hann⟩ := h
  obtain ⟨-, ⟨files', blob', hparent', hnone', htree', hblob'⟩, writer', hann'⟩ := h'
  obtain rfl := hparent.unique hparent'
  rw [hcommit] at htree
  have heq := congrArg (AList.lookup entry.path) (htree.unique htree')
  rw [AList.lookup_insert] at heq
  have hpath : entry.path = entry'.path := by
    by_contra hne
    rw [AList.lookup_insert_ne hne, hnone] at heq
    cases heq
  rw [hpath, AList.lookup_insert] at heq
  cases heq
  have hcontent : entry.content = entry'.content := Option.some.inj (hblob.symm.trans hblob')
  rw [hcontent, hann'] at hann
  obtain ⟨hid, -, hprev⟩ := ParsedMessage.mk.inj (Option.some.inj hann)
  cases entry
  cases entry'
  exact Entry.mk.injEq .. ▸ ⟨hcommit, hid.symm, hprev.symm, hcontent⟩

/-- The root has no line of commits that comes back to it. -/
theorem Lane.eq_nil (h : Lane objects root root entries) : entries = [] := by
  generalize hend : root = top at h
  cases h with
  | root => rfl
  | @append head _ entry hlane hadds =>
    subst hend
    have := hlane.ancestor.generation_le
    have := objects.graph.generation_lt hadds.parents (List.mem_singleton.mpr rfl)
    omega

/-- A head has one lane. -/
theorem Lane.unique (h : Lane objects root head entries) (h' : Lane objects root head entries') : entries = entries' := by
  induction h generalizing entries' with
  | root => exact h'.eq_nil.symm
  | @append head entries entry hlane hadds ih =>
    generalize hend : entry.commitSha = top at h'
    cases h' with
    | root =>
      subst hend
      exact (hlane.append hadds).eq_nil
    | @append head' entries' entry' hlane' hadds' =>
      have hparents := hadds.parents
      rw [hend, hadds'.parents] at hparents
      obtain rfl : head' = head := by simpa using hparents
      rw [ih hlane', hadds.unique hadds' hend]

/-- The commit that adds a message keeps the files of its parent. -/
theorem Adds.files_kept (h : Adds objects parent entry) {files : Files String} (hparent : objects.TreeAt parent files) :
    ∃ files', objects.TreeAt entry.commitSha files' ∧
      ∀ path blob, files.lookup path = some blob → files'.lookup path = some blob := by
  obtain ⟨-, ⟨files₁, blob, hparent', hnone, htree, -⟩, -⟩ := h
  obtain rfl := hparent.unique hparent'
  refine ⟨_, htree, fun path blob' hpath => ?_⟩
  have hne : path ≠ entry.path := by
    rintro rfl
    rw [hnone] at hpath
    cases hpath
  rwa [AList.lookup_insert_ne hne]

/-! ### Links -/

theorem linked_nil : Linked before [] := by
  intro earlier entry later h
  simp at h

theorem Linked.append (h : Linked before entries) (hnew : entry.messageId ∉ messageIds before entries)
    (hprev : entry.prevMessageId = (messageIds before entries).getLast?) : Linked before (entries ++ [entry]) := by
  intro earlier e later heq
  rcases List.eq_nil_or_concat later with rfl | ⟨later, last, rfl⟩
  · obtain ⟨rfl, hlast⟩ := List.append_inj' heq rfl
    obtain rfl := List.singleton_inj.mp hlast
    exact ⟨hnew, hprev⟩
  · rw [List.concat_eq_append, ← List.cons_append, ← List.append_assoc] at heq
    exact h earlier e later (List.append_inj' heq rfl).1

/-- No two entries of a lane have one id, and none has an id from before. -/
theorem Linked.nodup (h : Linked before entries) (hbefore : before.Nodup) : (messageIds before entries).Nodup := by
  induction entries using List.reverseRecOn with
  | nil => simpa [messageIds] using hbefore
  | append_singleton entries entry ih =>
    have hfirst : Linked before entries := by
      intro earlier e later heq
      exact h earlier e (later ++ [entry]) (by simp [heq])
    have hnew := (h entries entry [] rfl).1
    have := ih hfirst
    simp only [messageIds, List.map_append, List.map_cons, List.map_nil, ← List.append_assoc] at *
    rw [List.nodup_append]
    exact ⟨this, by simp, fun a ha b hb => by
      rintro rfl
      exact hnew (List.mem_singleton.mp hb ▸ ha)⟩

/-! ### What the appends promise each other -/

/-- The repository has more objects, and its lane has more entries and the same files. -/
structure Grows (site : Site) (repo repo' : Repo) : Prop where
  extends_objects : repo.toObjects.Extends repo'.toObjects
  ancestor : repo'.graph.Ancestor repo.head repo'.head
  files_kept : ∀ files, repo.TreeAt repo.head files →
    ∃ files', repo'.TreeAt repo'.head files' ∧
      ∀ path blob, files.lookup path = some blob → files'.lookup path = some blob
  lane : ∀ entries, IsLane site repo entries → ∃ added, IsLane site repo' (entries ++ added)

theorem Grows.of_head (h : repo.toObjects.Extends repo'.toObjects) (hhead : repo'.head = repo.head) :
    Grows site repo repo' := by
  refine ⟨h, by rw [hhead]; exact .refl _, fun files htree => ⟨files, by rw [hhead]; exact h.treeAt htree, fun _ _ => id⟩,
    fun entries ⟨hlane, hlinked⟩ => ⟨[], ?_⟩⟩
  rw [List.append_nil, IsLane, hhead]
  exact ⟨hlane.mono h, hlinked⟩

theorem Grows.refl (repo : Repo) : Grows site repo repo := .of_head (.refl _) rfl

theorem Grows.trans {repo'' : Repo} (h : Grows site repo repo') (h' : Grows site repo' repo'') :
    Grows site repo repo'' := by
  refine ⟨h.extends_objects.trans h'.extends_objects,
    (h'.extends_objects.ancestor repo'.head_known h.ancestor).trans h'.ancestor, fun files htree => ?_,
    fun entries hlane => ?_⟩
  · obtain ⟨files', htree', hkept⟩ := h.files_kept files htree
    obtain ⟨files'', htree'', hkept'⟩ := h'.files_kept files' htree'
    exact ⟨files'', htree'', fun path blob hpath => hkept' path blob (hkept path blob hpath)⟩
  obtain ⟨added, hlane'⟩ := h.lane entries hlane
  obtain ⟨added', hlane''⟩ := h'.lane _ hlane'
  exact ⟨added ++ added', by rwa [← List.append_assoc]⟩

/-- The arguments of an append to a lane, but for the identity. -/
structure Arguments where
  expectedLaneHead : String
  message : Utf8

/-- What a call of an append does: it moves the ref at most from the head the append
expects, and then to a commit that adds a message. -/
structure Promise (site : Site) (arguments : Arguments) (repo repo' : Repo) : Prop extends Grows site repo repo' where
  moves : repo'.head ≠ repo.head → repo.head = lower arguments.expectedLaneHead ∧
    ∃ entry, entry.commitSha = repo'.head ∧ Adds repo'.toObjects repo.head entry

variable {arguments : Arguments} {history : IdentityHistory} {E H : String}

theorem Promise.of_head (h : repo.toObjects.Extends repo'.toObjects) (hhead : repo'.head = repo.head) :
    Promise site arguments repo repo' := ⟨.of_head h hhead, fun hne => absurd hhead hne⟩

/-- The call is no update of a ref. -/
def IsPassive : Op → Prop
  | .updateRefNonForce _ _ => False
  | _ => True

theorem backend_passive {op : Op} {reply : Except Exc op.Reply} (hop : IsPassive op) (h : Backend site op repo reply repo') :
    repo.toObjects.Extends repo'.toObjects ∧ repo'.head = repo.head ∧
      ∀ value, reply = .ok value → Replies site repo' op value := by
  obtain ⟨hext, h⟩ := h
  cases op <;> cases reply <;> first | exact hop.elim | simp_all

/-- The judgement of programs that append to a lane. -/
abbrev Appends {α : Type} (site : Site) (arguments : Arguments) (P : Repo → Prop) (p : Program α) (R : α → Repo → Prop) :
    Prop := Secures (Backend site) (Grows site) (Promise site arguments) P p R

theorem appends_askOr {op : Op} {handler : Exc → Exc} {P : Repo → Prop} {R : op.Reply → Repo → Prop}
    (hop : IsPassive op) (hP : Stable (Grows site) P) (hR : ∀ repo value, P repo → Replies site repo op value → R value repo) :
    Appends site arguments P (askOr op handler) R :=
  Secures.askOr hP fun repo reply repo' hrepo hcall => by
    obtain ⟨hext, hhead, hreply⟩ := backend_passive hop hcall
    exact ⟨.of_head hext hhead, fun value hvalue =>
      hR repo' value (hP repo repo' (.of_head hext hhead) hrepo) (hreply value hvalue)⟩

theorem appends_passive {α : Type} {P : Repo → Prop} {p : Program α} (h : p.Only IsPassive) :
    Appends site arguments P p fun _ _ => True :=
  Secures.only h fun _ _ _ _ hop hcall =>
    have ⟨hext, hhead, _⟩ := backend_passive hop hcall
    .of_head hext hhead

/-! ### What stays true -/

theorem stable_objects {F : Objects String → Prop} (hF : ∀ objects objects', objects.Extends objects' → F objects → F objects') :
    Stable (Grows site) fun repo => F repo.toObjects := fun _ _ h => hF _ _ h.extends_objects

/-- The head `H` was reached; and as long as it is the head, the lane is what the
history says. -/
structure Seen (site : Site) (history : IdentityHistory) (H : String) (repo : Repo) : Prop where
  ancestor : repo.graph.Ancestor H repo.head
  exact_history : repo.head = H → ∃ entries, Lane repo.toObjects site.root H entries ∧
    Exact history (messageIds site.before entries)

theorem Grows.reached (h : Grows site repo repo') (hH : repo.graph.Ancestor H repo.head) :
    repo'.graph.Ancestor H repo'.head := (h.extends_objects.ancestor repo.head_known hH).trans h.ancestor

/-- Where the head is one that was reached before, it has not moved since. -/
theorem Grows.head_eq (h : Grows site repo repo') (hH : repo.graph.Ancestor H repo.head) (hhead : repo'.head = H) :
    repo.head = H := by
  subst hhead
  exact h.ancestor.antisymm (h.extends_objects.ancestor repo.head_known hH)

theorem Seen.stable : Stable (Grows site) (Seen site history H) := by
  intro repo repo' hgrows ⟨hancestor, hexact⟩
  refine ⟨hgrows.reached hancestor, fun hhead => ?_⟩
  obtain ⟨entries, hlane, hids⟩ := hexact (hgrows.head_eq hancestor hhead)
  exact ⟨entries, hlane.mono hgrows.extends_objects, hids⟩

theorem stable_reached : Stable (Grows site) fun repo => repo.graph.Ancestor H repo.head :=
  fun _ _ h hH => h.reached hH

/-- The name of a head that was reached is lower-case. -/
theorem lower_of_reached (h : repo.graph.Ancestor H repo.head) : lower H = H :=
  repo.lower_eq (h.known repo.head_known)

/-! ### What the checks say -/

/-- The message of a valid predecessor names the last message of the lane. -/
theorem prev_of_validatePredecessor {ids : List String} {parsed : ParsedMessage} (hexact : Exact history ids)
    (h : validatePredecessor history parsed = .ok ()) : parsed.prevMessageId = ids.getLast? := by
  unfold validatePredecessor at h
  rw [hexact.tips] at h
  cases hlast : ids.getLast? with
  | none =>
    simp only [hlast, Option.toList_none] at h
    split_ifs at h with hmessages hprev
    exact not_not.mp hprev
  | some tip =>
    simp only [hlast, Option.toList_some] at h
    split at h
    · cases h
    · next prev hprev =>
      split_ifs at h with htip
      rw [hprev, not_not.mp htip]

theorem not_mem_of_duplicates {ids : List String} {envelope : Envelope} (hexact : Exact history ids)
    (h : duplicates history envelope = []) : envelope.parsed.messageId ∉ ids := by
  intro hmem
  obtain ⟨message, hmessage, hid⟩ := List.mem_map.mp ((hexact.mem_iff _).mpr hmem)
  have : message ∈ duplicates history envelope := List.mem_filter.mpr ⟨hmessage, by simpa using hid⟩
  simp [h] at this

/-- The message of an opened envelope says of itself what was parsed. -/
theorem announced_of_openEnvelope {runtime : Runtime} {identity expectedLaneHead : String} {message : Utf8}
    {envelope : Envelope} (h : openEnvelope runtime identity expectedLaneHead message = .ok envelope) :
    announced envelope.messageBytes = some envelope.parsed := by
  obtain ⟨-, -, -, -, ⟨text, hutf8, hparse⟩, -⟩ := openEnvelope_ok h
  simp [announced, asExactUtf8_ok hutf8, hparse, Except.toOption]

/-! ### One append -/

/-- **A fast-forward to a prepared candidate is one from the head the append expects,
and adds one message to the lane.** -/
theorem promise_update {branch : String} {envelope : Envelope} {candidateSha : String}
    {reply : Except Exc Bool} (hexpected : envelope.expectedHead = lower arguments.expectedLaneHead)
    (hvalid : validatePredecessor history envelope.parsed = .ok ()) (hdup : duplicates history envelope = [])
    (hseen : Seen site history envelope.expectedHead repo)
    (hadds : Adds repo.toObjects envelope.expectedHead (envelope.entry candidateSha))
    (hcall : Backend site (.updateRefNonForce branch candidateSha) repo reply repo') :
    Promise site arguments repo repo' := by
  obtain ⟨hext, hcall⟩ := hcall
  have hcases : repo'.head = repo.head ∨ Moved site repo repo' (.updateRefNonForce branch candidateSha) := by
    cases reply with
    | error exc => exact hcall
    | ok moved =>
      cases moved with
      | true => exact hcall.symm.imp_left And.right
      | false => exact .inl hcall.1
  rcases hcases with hhead | ⟨-, hforward, hhead⟩
  · exact .of_head hext hhead
  by_cases hsame : repo.head = candidateSha
  · exact .of_head hext (hhead.trans hsame.symm)
  -- the head is above the candidate's parent, which the append expects and was the head before
  have hE : repo.head = envelope.expectedHead :=
    (((CommitGraph.ancestor_iff_of_parents hadds.parents).mp hforward).resolve_left hsame).antisymm hseen.ancestor
  obtain ⟨entries, hlane, hexact⟩ := hseen.exact_history hE
  have hnew := hlane.append hadds
  refine ⟨⟨hext, ?_, fun files htree => ?_, ?_⟩,
    fun _ => ⟨hE.trans hexpected, envelope.entry candidateSha, hhead.symm, ?_⟩⟩
  · rw [hhead]
    exact (CommitGraph.ancestor_of_extends hext.graph (Option.isSome_iff_exists.mpr ⟨_, hadds.parents⟩)).mpr hforward
  · rw [hE] at htree
    rw [hhead]
    exact (hadds.mono hext).files_kept (hext.treeAt htree)
  · rintro entries' ⟨hlane', hlinked⟩
    rw [hE] at hlane'
    obtain rfl := hlane.unique hlane'
    refine ⟨[envelope.entry candidateSha], ?_, hlinked.append (not_mem_of_duplicates hexact hdup)
      (prev_of_validatePredecessor hexact hvalid)⟩
    rw [hhead]
    exact hnew.mono hext
  · rw [hE]
    exact hadds.mono hext

/-- There is no file at a path of the commit's tree. -/
def PathFree (commitSha path : String) (objects : Objects String) : Prop :=
  ∃ files, objects.TreeAt commitSha files ∧ files.lookup path = none

/-- A tree that is the commit's with one more file. -/
def TreeBuilt (commitSha path : String) (content : Bytes) (treeSha : String) (objects : Objects String) : Prop :=
  ∃ files blob, objects.TreeAt commitSha files ∧ files.lookup path = none ∧
    objects.trees treeSha = some (files.insert path blob) ∧ objects.blobs blob = some content

theorem PathFree.mono {commitSha path : String} (h : objects.Extends objects') (hfree : PathFree commitSha path objects) :
    PathFree commitSha path objects' := by
  obtain ⟨files, htree, hnone⟩ := hfree
  exact ⟨files, h.treeAt htree, hnone⟩

theorem TreeBuilt.mono {commitSha path treeSha : String} {content : Bytes} (h : objects.Extends objects')
    (hbuilt : TreeBuilt commitSha path content treeSha objects) : TreeBuilt commitSha path content treeSha objects' := by
  obtain ⟨files, blob, htree, hnone, hnew, hblob⟩ := hbuilt
  exact ⟨files, blob, h.treeAt htree, hnone, h.trees hnew, h.blobs hblob⟩

/-- The candidate that is built adds the envelope's message to the head it expects. -/
theorem appends_buildCandidate {control : ControlSnapshot} {envelope : Envelope} {observedHead : String}
    (hann : announced envelope.messageBytes = some envelope.parsed) :
    Appends site arguments (Seen site history observedHead) (buildCandidate control envelope history observedHead)
      fun made repo => (Seen site history envelope.expectedHead repo ∧
        Adds repo.toObjects envelope.expectedHead (envelope.entry made.2.2)) ∧
        validatePredecessor history envelope.parsed = .ok () := by
  refine Secures.bind (Secures.refuseIf _ _) fun _ => Secures.assume fun hstale => ?_
  refine Secures.bind (Secures.lift _) fun _ => Secures.assume fun hvalid => ?_
  have hseen : ∀ repo, Seen site history observedHead repo → Seen site history envelope.expectedHead repo := by
    intro repo h
    rwa [← not_not.mp hstale, lower_of_reached h.ancestor]
  refine Secures.weaken ?_ hseen
  refine Secures.bind (appends_askOr (R := fun file repo => Seen site history envelope.expectedHead repo ∧
    (file = none → PathFree envelope.expectedHead envelope.path repo.toObjects)) trivial Seen.stable ?_) fun file => ?_
  · intro repo file h hfile
    refine ⟨h, fun hnone => ?_⟩
    obtain ⟨files, htree⟩ := Objects.exists_treeAt (h.ancestor.known repo.head_known)
    refine ⟨files, htree, (Objects.fileAt_eq_none_iff htree).mp ?_⟩
    exact Option.map_eq_none_iff.mp (hfile.symm.trans hnone)
  refine Secures.bind (Secures.refuseIf _ _) fun _ => Secures.assume fun hfile => ?_
  refine Secures.weaken (P := fun repo => Seen site history envelope.expectedHead repo ∧
    PathFree envelope.expectedHead envelope.path repo.toObjects) ?_ fun repo h => ⟨h.1, h.2 (not_not.mp hfile)⟩
  refine Secures.bind (appends_askOr (R := fun blobSha repo => (Seen site history envelope.expectedHead repo ∧
    PathFree envelope.expectedHead envelope.path repo.toObjects) ∧
    repo.toObjects.blobs blobSha = some envelope.messageBytes) trivial
    (Seen.stable.and (stable_objects fun _ _ => PathFree.mono)) ?_) fun blobSha => ?_
  · exact fun repo blobSha h hblob => ⟨h, hblob⟩
  refine Secures.bind (appends_askOr (R := fun treeSha repo => Seen site history envelope.expectedHead repo ∧
    TreeBuilt envelope.expectedHead envelope.path envelope.messageBytes treeSha repo.toObjects) trivial
    ((Seen.stable.and (stable_objects fun _ _ => PathFree.mono)).and
      (stable_objects fun _ _ hext h => hext.blobs h)) ?_) fun treeSha => ?_
  · rintro repo treeSha ⟨⟨h, files, htree, hnone⟩, hblob⟩ ⟨-, files', htree', hnew⟩
    obtain rfl := htree.unique htree'
    exact ⟨h, files, blobSha, htree, hnone, hnew, hblob⟩
  refine Secures.bind (appends_askOr (R := fun candidateSha repo => Seen site history envelope.expectedHead repo ∧
    Adds repo.toObjects envelope.expectedHead (envelope.entry candidateSha)) trivial
    (Seen.stable.and (stable_objects fun _ _ => TreeBuilt.mono)) ?_) fun candidateSha => ?_
  · rintro repo candidateSha ⟨h, files, blob, htree, hnone, hnew, hblob⟩ ⟨hparents, htreeOf⟩
    refine ⟨h, hparents, ⟨files, blob, htree, hnone, ⟨Option.isSome_iff_exists.mpr ⟨_, hparents⟩, ?_⟩, hblob⟩, _, hann⟩
    exact (congrArg repo.trees htreeOf).trans hnew
  have hstable : Stable (Grows site) fun repo => Seen site history envelope.expectedHead repo ∧
      Adds repo.toObjects envelope.expectedHead (envelope.entry candidateSha) :=
    Seen.stable.and (stable_objects fun _ _ => Adds.mono)
  refine Secures.bind (appends_askOr trivial hstable fun repo _ h _ => h) fun rebound => ?_
  refine Secures.bind (Secures.refuseIf _ _) fun _ => Secures.pure _ fun repo h => ⟨h.1, hvalid⟩

theorem only_reconcileUpdate {candidateSha expectedHead : String} {updateError : Exc} {head : Option String} :
    (reconcileUpdate candidateSha expectedHead updateError head).Only IsPassive := by
  unfold reconcileUpdate
  split
  · trivial
  · refine Prog.Only.bind ?_ fun reachable => ?_
    · cases head with
      | none => trivial
      | some head =>
        refine ⟨trivial, fun reply => ?_⟩
        cases reply <;> trivial
    · split
      · trivial
      · split <;> trivial
      · trivial

theorem only_lift {α : Type} (result : Except Exc α) : (lift result).Only IsPassive := trivial

theorem only_refuseIf (p : Prop) [Decidable p] (exc : Exc) : (refuseIf p exc).Only IsPassive := trivial

theorem only_askOr {op : Op} {handler : Exc → Exc} (hop : IsPassive op) : (askOr op handler).Only IsPassive :=
  Prog.Only.askOr hop

theorem only_readControlAfterVerifiedEffect : readControlAfterVerifiedEffect.Only IsPassive := only_askOr trivial

theorem only_verifyNewAppend (runtime : Runtime) (control : ControlSnapshot) (binding : LaneBinding)
    (envelope : Envelope) (prewriteObservedHead candidateSha treeSha blobSha : String) :
    (verifyNewAppend runtime control binding envelope prewriteObservedHead candidateSha treeSha blobSha).Only
      IsPassive := by
  refine Prog.Only.bind (only_askOr trivial) fun head => (only_refuseIf _ _).bind fun _ =>
    Prog.Only.bind (Prog.Only.ask trivial) fun commit => ?_
  split
  · trivial
  · refine (only_refuseIf _ _).bind fun _ => (only_refuseIf _ _).bind fun _ =>
      Prog.Only.bind (Prog.Only.ask trivial) fun file => ?_
    split
    · trivial
    · exact (only_refuseIf _ _).bind fun _ => (only_lift _).bind fun _ =>
        only_readControlAfterVerifiedEffect.bind fun _ => trivial

theorem only_reconstructExisting (runtime : Runtime) (control : ControlSnapshot) (binding : LaneBinding)
    (envelope : Envelope) (observedHead : String) (existing : CommittedMessage) :
    (reconstructExisting runtime control binding envelope observedHead existing).Only IsPassive := by
  refine Prog.Only.bind (Prog.Only.ask trivial) fun commit => Prog.Only.bind (Prog.Only.ask trivial) fun file => ?_
  split
  · split
    · exact (only_refuseIf _ _).bind fun _ => (only_refuseIf _ _).bind fun _ => (only_refuseIf _ _).bind fun _ =>
        (only_lift _).bind fun _ => only_readControlAfterVerifiedEffect.bind fun _ => trivial
    · trivial
  · trivial

theorem lane_of_requireBinding {runtime : Runtime} {control : ControlSnapshot} {envelope : Envelope}
    {binding : LaneBinding} (h : requireBinding runtime control envelope = .ok binding) :
    control.lanes envelope.identity = some binding := by
  unfold requireBinding at h
  split at h
  · cases h
  · next hlane =>
    split_ifs at h
    cases h
    exact hlane

theorem writer_of_requireBinding {runtime : Runtime} {control : ControlSnapshot} {envelope : Envelope}
    {binding : LaneBinding} (h : requireBinding runtime control envelope = .ok binding) :
    binding.identity = envelope.identity ∧ runtime.casefold envelope.parsed.writer = runtime.casefold binding.writer := by
  unfold requireBinding at h
  split at h
  · cases h
  · split_ifs at h with hidentity hwriter
    cases h
    exact ⟨not_not.mp hidentity, not_not.mp hwriter⟩

theorem appends_observeHead {branch : String} (hbranch : branch = site.branch) :
    Appends site arguments (fun _ => True) (observeHead branch) fun observedHead repo =>
      repo.graph.Ancestor observedHead repo.head := by
  refine Secures.bind (R := fun observed repo => ∀ head, observed = some head → repo.graph.Ancestor head repo.head)
    (appends_askOr trivial (Stable.const True) ?_) fun observed => ?_
  · intro repo observed _ hobserved head hhead
    obtain rfl : repo.head = head := Option.some.inj ((hobserved hbranch).symm.trans hhead)
    exact .refl _
  · cases observed with
    | none => exact Secures.throw _
    | some head => exact Secures.pure _ fun repo h => h head rfl

/-- What the history says when it is read, it says for as long as the head is the head
that was observed. -/
theorem appends_readHistory {observedHead identity : String} (hidentity : identity = site.identity) :
    Appends site arguments (fun repo => repo.graph.Ancestor observedHead repo.head) (readHistory identity)
      fun history repo => Seen site history observedHead repo := by
  refine Secures.bind (R := fun history repo => Seen site history observedHead repo)
    (appends_askOr trivial stable_reached ?_) fun history => ?_
  · intro repo history hreached hhistory
    obtain ⟨entries, hlane, hexact⟩ := hhistory hidentity
    exact ⟨hreached, fun hhead => ⟨entries, hhead ▸ hlane, hexact⟩⟩
  · exact Secures.bind (Secures.refuseIf _ _) fun _ => Secures.pure _ fun repo h => h.1

/-- The ref moves, if it does, as promised. -/
theorem appends_moveRefOrReconcile {branch candidateSha : String} {envelope : Envelope}
    (hexpected : envelope.expectedHead = lower arguments.expectedLaneHead)
    (hvalid : validatePredecessor history envelope.parsed = .ok ()) (hdup : duplicates history envelope = []) :
    Appends site arguments
      (fun repo => Seen site history envelope.expectedHead repo ∧
        Adds repo.toObjects envelope.expectedHead (envelope.entry candidateSha))
      (moveRefOrReconcile branch candidateSha envelope.expectedHead) fun _ _ => True := by
  refine Secures.call (T := fun _ _ => True) (Seen.stable.and (stable_objects fun _ _ => Adds.mono)) ?_ fun update => ?_
  · intro repo reply repo' ⟨hseen, hadds⟩ hcall
    exact ⟨promise_update hexpected hvalid hdup hseen hadds hcall, trivial⟩
  · refine appends_passive (Prog.Only.bind (only_askOr trivial) fun head => ?_)
    cases update with
    | error exc => exact only_reconcileUpdate
    | ok moved => exact only_lift _

/-- An append of an envelope keeps its promise. -/
theorem appends_appendEnvelope {runtime : Runtime} {envelope : Envelope} (hidentity : envelope.identity = site.identity)
    (hexpected : envelope.expectedHead = lower arguments.expectedLaneHead)
    (hann : announced envelope.messageBytes = some envelope.parsed) :
    Appends site arguments (fun _ => True) (appendEnvelope runtime envelope) fun _ _ => True := by
  refine Secures.bind (R := fun control _ => ∀ binding, control.lanes envelope.identity = some binding →
    binding.branch = site.branch) (appends_askOr trivial (Stable.const True) ?_) fun control => ?_
  · intro repo control _ hcontrol
    rwa [hidentity]
  refine Secures.bind (Secures.lift _) fun binding => Secures.assume fun hbinding => ?_
  refine Secures.weaken (P := fun _ => True ∧ binding.branch = site.branch) (Secures.assume fun hbranch => ?_)
    fun repo hcontrol => ⟨trivial, hcontrol binding (lane_of_requireBinding hbinding)⟩
  refine Secures.bind (appends_observeHead hbranch) fun observedHead => ?_
  refine Secures.bind (appends_readHistory hidentity) fun history => ?_
  split
  · next hdup =>
    refine Secures.bind (appends_buildCandidate hann) fun (blobSha, treeSha, candidateSha) => Secures.assume fun hvalid => ?_
    exact Secures.bind (appends_moveRefOrReconcile hexpected hvalid hdup) fun _ =>
      appends_passive (only_verifyNewAppend ..)
  · split
    · exact Secures.throw _
    · exact appends_passive (only_reconstructExisting ..)
  · exact Secures.throw _

/-- An append to the lane keeps its promise. -/
theorem appends_appendBusMessageV1 {runtime : Runtime} :
    Appends site arguments (fun _ => True)
      (appendBusMessageV1 runtime site.identity arguments.expectedLaneHead arguments.message) fun _ _ => True := by
  refine Secures.bind (Secures.lift _) fun envelope => Secures.assume fun hopen => ?_
  obtain ⟨-, -, hidentity, hexpected, -, -⟩ := openEnvelope_ok hopen
  exact appends_appendEnvelope hidentity hexpected (announced_of_openEnvelope hopen)

/-! ### Every run -/

variable {ι : Type} [DecidableEq ι]

/-- Appenders, and the repository they append to. -/
abbrev World (ι : Type) := Pool Sources Exc SafeAppendReceipt Repo ι Arguments

/-- What others do to the repository: they add objects. -/
def Others (repo repo' : Repo) : Prop := repo.toObjects.Extends repo'.toObjects ∧ repo'.head = repo.head

/-- A step of appenders to one lane: one of them starts an append, or makes its next
call; or others add objects. -/
abbrev AppendStep (runtime : Runtime) (site : Site) : World ι → PoolEvent ι Arguments → World ι → Prop :=
  PoolStep (Backend site) Others fun arguments =>
    appendBusMessageV1 runtime site.identity arguments.expectedLaneHead arguments.message

/-- **The lane stays one line of commits that only grows, each adding one message under
a new id, naming the message before it, and keeping every file; and the ref is moved
only from the head that the append which moves it expects.** -/
theorem lane_linear (runtime : Runtime) (site : Site) (w w' : World ι) (entries : List Entry)
    (es : List (PoolEvent ι Arguments)) (hidle : ∀ i, ∃ result, w.program i = .done result)
    (hlane : IsLane site w.state entries) (hrun : Run (AppendStep runtime site) w es w') :
    (∃ added, IsLane site w'.state (entries ++ added) ∧
      (site.before.Nodup → (messageIds site.before (entries ++ added)).Nodup)) ∧
    (∀ path file, w.state.fileAt w.state.head path = some file → w'.state.fileAt w'.state.head path = some file) ∧
    ∀ i w'', AppendStep runtime site w' (.call i) w'' → w''.state.head ≠ w'.state.head →
      w'.state.head = lower (w'.data i).expectedLaneHead ∧
        ∃ entry, entry.commitSha = w''.state.head ∧ Adds w''.state.toObjects w'.state.head entry := by
  have hpromise : ∀ arguments s s', Promise site arguments s s' → Grows site s s' := fun _ _ _ h => h.toGrows
  obtain ⟨hsecured, hgrows⟩ := pool_run Grows.refl (fun _ _ _ => Grows.trans) hpromise
    (fun _ _ h => Grows.of_head h.1 h.2)
    (fun _ s => (appends_appendBusMessageV1 s trivial).mono fun _ _ _ => trivial) (secured_of_done hidle) hrun
  refine ⟨?_, fun path file hfile => ?_, fun i w'' hstep => (PoolStep.guarantee Grows.refl hsecured hstep).moves⟩
  · obtain ⟨added, hlane'⟩ := hgrows.lane entries hlane
    exact ⟨added, hlane', hlane'.2.nodup⟩
  · obtain ⟨files, htree⟩ := Objects.exists_treeAt w.state.head_known
    obtain ⟨files', htree', hkept⟩ := hgrows.files_kept files htree
    rw [Objects.fileAt_of_treeAt htree] at hfile
    rw [Objects.fileAt_of_treeAt htree']
    obtain ⟨blob, hblob, hread⟩ := Option.bind_eq_some_iff.mp hfile
    obtain ⟨content, hcontent, rfl⟩ := Option.map_eq_some_iff.mp hread
    rw [hkept path blob hblob, Option.bind_some, hgrows.extends_objects.blobs hcontent, Option.map_some]

/-! ### A run -/

def sampleRoot : String := String.ofList (List.replicate 40 'a')

def sampleCandidate : String := String.ofList (List.replicate 40 'c')

def sampleText : List Char := "message_id: yin-1\nwriter: yin\n".toList

def samplePath : String := "messages/yin-1.md"

/-- A repository in which the objects of an append are there already. -/
def sampleObjects : Objects String where
  blobs blob := if blob = "blob" then some (encode sampleText) else none
  trees t :=
    if t = "t0" then some ∅
    else if t = "t1" then some ((∅ : Files String).insert samplePath "blob")
    else none
  graph :=
    { parents := fun c => if c = sampleRoot then some [] else if c = sampleCandidate then some [sampleRoot] else none
      generation := fun c => if c = sampleCandidate then 1 else 0
      parents_isSome := by
        intro c ps p hc hp
        split_ifs at hc with hroot hcandidate
        · simp_all
        · obtain rfl : [sampleRoot] = ps := Option.some.inj hc
          simp [List.mem_singleton.mp hp]
      generation_lt := by
        have hne : sampleRoot ≠ sampleCandidate := by decide
        intro c ps p hc hp
        split_ifs at hc with hroot hcandidate
        · simp_all
        · obtain rfl : [sampleRoot] = ps := Option.some.inj hc
          obtain rfl := List.mem_singleton.mp hp
          simp [hcandidate, hne] }
  treeOf c := if c = sampleRoot then "t0" else "t1"
  committedAt _ := "2026-01-01T00:00:00+00:00"
  trees_isSome := by
    intro c _
    by_cases hroot : c = sampleRoot <;> simp [hroot]
  blobs_isSome := by
    intro t files path blob ht hblob
    split_ifs at ht <;> cases ht
    · simp at hblob
    · rcases Table.lookup_insert_eq_some.mp hblob with ⟨-, rfl⟩ | ⟨-, hblob⟩
      · simp
      · simp at hblob
  isHex_name := by
    intro c hc
    simp only [CommitGraph.Known] at hc
    split_ifs at hc with hroot hcandidate
    · rw [hroot]
      decide
    · rw [hcandidate]
      decide
    · cases hc

def sampleSite : Site := ⟨"yin", "bus/yin-v2", sampleRoot, []⟩

theorem known_sampleRoot : sampleObjects.graph.Known sampleRoot := by simp [CommitGraph.Known, sampleObjects]

theorem known_sampleCandidate : sampleObjects.graph.Known sampleCandidate := by
  have hne : sampleCandidate ≠ sampleRoot := by decide
  simp [CommitGraph.Known, sampleObjects, hne]

def sampleRepo : Repo := ⟨sampleObjects, sampleRoot, known_sampleRoot⟩

/-- A backend over those objects, whose update raises after it moved the ref. -/
def sampleBackend (op : Op) (repo : Repo) : Except Exc op.Reply × Repo :=
  match op with
  | .readControl => (.ok ⟨"radar", "c0", "t0", fun _ => some ⟨"yin", "yin", "bus/yin-v2"⟩⟩, repo)
  | .readIdentity _ => if repo.head = sampleRoot then (.ok ⟨true, [], []⟩, repo) else (.error (.other ""), repo)
  | .readBranchHead _ => (.ok (some repo.head), repo)
  | .readFileAtCommit commitSha path => (.ok (readFile repo.toObjects commitSha path), repo)
  | .readCommit _ => (.ok none, repo)
  | .createBlob content => if content = encode sampleText then (.ok "blob", repo) else (.error (.other ""), repo)
  | .createTree baseCommitSha path blobSha =>
    if baseCommitSha = sampleRoot ∧ path = samplePath ∧ blobSha = "blob" then (.ok "t1", repo) else (.error (.other ""), repo)
  | .createCommit _ treeSha parentSha =>
    if treeSha = "t1" ∧ parentSha = sampleRoot then (.ok sampleCandidate, repo) else (.error (.other ""), repo)
  | .updateRefNonForce branch candidateSha =>
    if branch = "bus/yin-v2" ∧ candidateSha = sampleCandidate ∧ repo.head = sampleRoot then
      (.error (.other "timeout"), ⟨sampleObjects, sampleCandidate, known_sampleCandidate⟩)
    else (.error (.other ""), repo)
  | .isAncestor _ _ => (.ok none, repo)

theorem backend_sampleBackend (op : Op) (repo : Repo) (h : repo.toObjects = sampleObjects) :
    Backend sampleSite op repo (sampleBackend op repo).1 (sampleBackend op repo).2 ∧
      (sampleBackend op repo).2.toObjects = sampleObjects := by
  have hrefl := Objects.Extends.refl repo.toObjects
  cases op with
  | readControl =>
    refine ⟨⟨hrefl, rfl, fun binding hbinding => ?_⟩, h⟩
    cases hbinding
    rfl
  | readIdentity identity =>
    by_cases hhead : repo.head = sampleRoot
    · simp only [sampleBackend, if_pos hhead]
      refine ⟨⟨hrefl, rfl, fun _ => ⟨[], ?_, by simp [messageIds, sampleSite], rfl⟩⟩, h⟩
      rw [hhead]
      exact .root
    · simp only [sampleBackend, if_neg hhead]
      exact ⟨⟨hrefl, rfl⟩, h⟩
  | readBranchHead branch => exact ⟨⟨hrefl, rfl, fun _ => rfl⟩, h⟩
  | readFileAtCommit commitSha path => exact ⟨⟨hrefl, rfl, rfl⟩, h⟩
  | readCommit commitSha => exact ⟨⟨hrefl, rfl, trivial⟩, h⟩
  | isAncestor ancestor descendant => exact ⟨⟨hrefl, rfl, trivial⟩, h⟩
  | createBlob content =>
    by_cases hcontent : content = encode sampleText
    · simp only [sampleBackend, if_pos hcontent]
      exact ⟨⟨hrefl, rfl, by simp [Replies, h, sampleObjects, hcontent]⟩, h⟩
    · simp only [sampleBackend, if_neg hcontent]
      exact ⟨⟨hrefl, rfl⟩, h⟩
  | createTree baseCommitSha path blobSha =>
    by_cases hargs : baseCommitSha = sampleRoot ∧ path = samplePath ∧ blobSha = "blob"
    · simp only [sampleBackend, if_pos hargs]
      obtain ⟨rfl, rfl, rfl⟩ := hargs
      refine ⟨⟨hrefl, rfl, ?_, ∅, ?_, ?_⟩, h⟩
      · simp [h, sampleObjects]
      · rw [h]
        exact ⟨known_sampleRoot, by simp [sampleObjects]⟩
      · simp [h, sampleObjects]
    · simp only [sampleBackend, if_neg hargs]
      exact ⟨⟨hrefl, rfl⟩, h⟩
  | createCommit message treeSha parentSha =>
    have hne : sampleCandidate ≠ sampleRoot := by decide
    by_cases hargs : treeSha = "t1" ∧ parentSha = sampleRoot
    · simp only [sampleBackend, if_pos hargs]
      obtain ⟨rfl, rfl⟩ := hargs
      exact ⟨⟨hrefl, rfl, by simp [h, sampleObjects, hne], by simp [h, sampleObjects, hne]⟩, h⟩
    · simp only [sampleBackend, if_neg hargs]
      exact ⟨⟨hrefl, rfl⟩, h⟩
  | updateRefNonForce branch candidateSha =>
    by_cases hargs : branch = "bus/yin-v2" ∧ candidateSha = sampleCandidate ∧ repo.head = sampleRoot
    · simp only [sampleBackend, if_pos hargs]
      obtain ⟨rfl, rfl, hhead⟩ := hargs
      have hne : sampleCandidate ≠ sampleRoot := by decide
      refine ⟨⟨by rw [h]; exact .refl _, .inr ⟨rfl, ?_, rfl⟩⟩, trivial⟩
      rw [h, hhead]
      exact CommitGraph.Parent.ancestor ⟨[sampleRoot], by simp [sampleObjects, hne], by simp⟩
    · simp only [sampleBackend, if_neg hargs]
      exact ⟨⟨hrefl, .inl rfl⟩, h⟩

def sampleArguments : Arguments :=
  ⟨sampleRoot, .str (sampleText.map fun c => Fin.ofNat 0x110000 c.toNat)⟩

def sampleWorld : World Bool := ⟨sampleRepo, fun _ => sampleArguments, fun _ => .done (.error (.other ""))⟩

/-- The append against the sample backend. -/
def sampleRun : List (Answer Sources Exc) × Except Exc SafeAppendReceipt × Repo :=
  (appendBusMessageV1 sampleRuntime "yin" sampleRoot sampleArguments.message).play sampleBackend sampleRepo

/-- One of two appenders appends a message, by an update that raises: the lane has it then. -/
theorem lane_linear_sample : ∃ es w', Run (AppendStep sampleRuntime sampleSite) sampleWorld es w' ∧
    w'.state.head = sampleCandidate ∧ ∃ added, IsLane sampleSite w'.state added := by
  have hrun : Runs (Backend sampleSite) (appendBusMessageV1 sampleRuntime "yin" sampleRoot sampleArguments.message)
      sampleRepo sampleRun.1 sampleRun.2.1 sampleRun.2.2 := by
    unfold sampleRun
    exact runs_play (J := fun repo => repo.toObjects = sampleObjects) backend_sampleBackend _ _ rfl
  have hhead : sampleRun.2.2.head = sampleCandidate := by decide +kernel
  have hpool := (Run.single (show AppendStep sampleRuntime sampleSite sampleWorld (.start true sampleArguments) _ from
    .start true sampleArguments)).trans
    (hrun.pool (p := { sampleWorld with
        data := Function.update sampleWorld.data true sampleArguments
        program := Function.update sampleWorld.program true
          (appendBusMessageV1 sampleRuntime "yin" sampleRoot sampleArguments.message) })
      (i := true) rfl (by simp))
  obtain ⟨⟨added, hlane, -⟩, -⟩ := lane_linear sampleRuntime sampleSite sampleWorld _ [] _ (fun _ => ⟨_, rfl⟩)
    ⟨.root, linked_nil⟩ hpool
  exact ⟨_, _, hpool, hhead, added, hlane⟩

end CcbCore.Append
