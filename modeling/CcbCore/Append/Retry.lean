import CcbCore.Append.BranchBound

/-!
# The retry of an append

After an append has returned `APPENDED`, its message is in the lane, and stays there
(`Landed`); what the receipt says of it is what the repository shows from then on
(`Certified`). A later append of the same bytes finds it in the history, and returns the
receipt `ALREADY_COMMITTED` of the same commit, path and blob without a write
(`retry_idempotent`), whatever was appended before the retry and is appended between its
calls. A later append of other bytes under the same id is refused as a collision, when its
writer is the lane's: when it is not, it is refused for that (`writer_refused_first`).
-/

namespace CcbCore.Append

open CcbCore.Python CcbCore.Git CcbCore.Message

variable {runtime : Runtime} {site : Site} {repo repo' : Repo} {entry : Entry} {entries : List Entry}
variable {arguments : Arguments} {envelope : Envelope} {receipt : SafeAppendReceipt}

/-! ### A message that has landed -/

/-- The entry's commit is above the lane's root and below its head, and adds the entry. -/
structure Landed (site : Site) (entry : Entry) (repo : Repo) : Prop where
  adds : ∃ parent, Adds repo.toObjects parent entry ∧ repo.graph.Ancestor site.root parent
  reached : repo.graph.Ancestor entry.commitSha repo.head

theorem Landed.stable : Stable (Grows site) (Landed site entry) := by
  rintro repo repo' hgrows ⟨⟨parent, hadds, hroot⟩, hreached⟩
  have hparent : repo.graph.Known parent := by
    obtain ⟨-, ⟨files, blob, htree, -⟩, -⟩ := hadds
    exact htree.1
  exact ⟨⟨parent, hadds.mono hgrows.extends_objects, hgrows.extends_objects.ancestor hparent hroot⟩, hgrows.reached hreached⟩

/-- What is below the head of a lane is below its root, or adds an entry. -/
theorem Lane.mem_of_ancestor {objects : Objects String} {root head c : String} (h : Lane objects root head entries)
    (hc : objects.graph.Ancestor c head) : objects.graph.Ancestor c root ∨ ∃ entry ∈ entries, entry.commitSha = c ∧
      ∃ parent, Adds objects parent entry := by
  induction h with
  | root => exact .inl hc
  | @append head entries entry _ hadds ih =>
    rcases (CommitGraph.ancestor_iff_of_parents hadds.parents).mp hc with rfl | hc
    · exact .inr ⟨entry, List.mem_append_right _ List.mem_cons_self, rfl, head, hadds⟩
    · rcases ih hc with hroot | ⟨entry', hmem, hentry⟩
      · exact .inl hroot
      · exact .inr ⟨entry', List.mem_append_left _ hmem, hentry⟩

/-- A message that has landed is an entry of the lane. -/
theorem Landed.mem (h : Landed site entry repo) (hlane : IsLane site repo entries) : entry ∈ entries := by
  obtain ⟨⟨parent, hadds, hroot⟩, hreached⟩ := h
  rcases hlane.1.mem_of_ancestor hreached with hbelow | ⟨entry', hmem, hcommit, parent', hadds'⟩
  · -- the commit is above its parent, which is above the root
    have hparent := repo.graph.generation_lt hadds.parents (List.mem_singleton.mpr rfl)
    have hle := hroot.generation_le
    have hle' := hbelow.generation_le
    omega
  · have hparents := hadds'.parents
    rw [hcommit, hadds.parents] at hparents
    obtain rfl : parent = parent' := by simpa using hparents
    rwa [← hadds'.unique hadds hcommit]

/-- The file that an entry adds. -/
theorem Adds.readFile {objects : Objects String} {parent : String} (h : Adds objects parent entry) :
    ∃ blob, readFile objects entry.commitSha entry.path = some ⟨blob, entry.content⟩ := by
  obtain ⟨-, ⟨files, blob, -, -, htree, hblob⟩, -⟩ := h
  refine ⟨blob, ?_⟩
  rw [Append.readFile, Objects.fileAt_of_treeAt htree, AList.lookup_insert, Option.bind_some, hblob]
  rfl

/-- A file that was read is read again. -/
theorem readFile_mono {objects objects' : Objects String} (h : objects.Extends objects') {c path : String} {file : FileReadback}
    (hread : readFile objects c path = some file) : readFile objects' c path = some file := by
  obtain ⟨⟨blob, content⟩, hfile, rfl⟩ := Option.map_eq_some_iff.mp hread
  obtain ⟨files, htree, hfile⟩ := Option.bind_eq_some_iff.mp hfile
  obtain ⟨blob', hlookup, hcontent⟩ := Option.bind_eq_some_iff.mp hfile
  obtain ⟨content', hblob, heq⟩ := Option.map_eq_some_iff.mp hcontent
  obtain ⟨rfl, rfl⟩ := Prod.mk.inj heq
  rw [readFile, Objects.fileAt_of_treeAt (h.treeAt (Objects.tree_eq_some.mp htree)), hlookup, Option.bind_some, h.blobs hblob]
  rfl

/-- What a receipt says of a message that was appended. -/
structure Certified (runtime : Runtime) (site : Site) (envelope : Envelope) (receipt : SafeAppendReceipt) (repo : Repo) : Prop where
  landed : Landed site (envelope.entry receipt.commitSha) repo
  identity : receipt.identity = site.identity
  writer : runtime.casefold envelope.parsed.writer = runtime.casefold receipt.derivedWriter
  branch : receipt.laneRef = site.branch
  operationKey : receipt.operationKey = envelope.operationKey runtime
  messageId : receipt.messageId = envelope.parsed.messageId
  path : receipt.path = envelope.path
  digest : receipt.messageSha256 = envelope.digest runtime
  file : readFile repo.toObjects receipt.commitSha receipt.path = some ⟨receipt.messageBlobSha, envelope.messageBytes⟩

theorem Certified.stable : Stable (Grows site) (Certified runtime site envelope receipt) := fun repo repo' hgrows h =>
  { h with
    landed := Landed.stable repo repo' hgrows h.landed
    file := readFile_mono hgrows.extends_objects h.file }

/-! ### The append that returned -/

/-- The repository's lane is as a lane should be. -/
def Laned (site : Site) (repo : Repo) : Prop := ∃ entries, IsLane site repo entries

theorem Laned.stable : Stable (Grows site) (Laned site) := by
  rintro repo repo' hgrows ⟨entries, hlane⟩
  obtain ⟨added, hlane'⟩ := hgrows.lane entries hlane
  exact ⟨_, hlane'⟩

/-- The commit is above the lane's root. -/
def Above (site : Site) (c : String) (repo : Repo) : Prop := repo.graph.Known c ∧ repo.graph.Ancestor site.root c

theorem Above.stable {c : String} : Stable (Grows site) (Above site c) := fun _ _ hgrows ⟨hc, hroot⟩ =>
  ⟨hgrows.extends_objects.known hc, hgrows.extends_objects.ancestor hc hroot⟩

theorem promise_grows : ∀ repo repo', Promise site arguments repo repo' → Grows site repo repo' := fun _ _ h => h.toGrows

theorem appends_observeHead_above {branch : String} (hbranch : branch = site.branch) :
    Appends site arguments (Laned site) (observeHead branch) fun observedHead repo =>
      repo.graph.Ancestor observedHead repo.head ∧ Above site observedHead repo := by
  refine Secures.bind (R := fun observed repo => ∀ head, observed = some head →
    repo.graph.Ancestor head repo.head ∧ Above site head repo) (appends_askOr trivial Laned.stable ?_) fun observed => ?_
  · rintro repo observed ⟨entries, hlane⟩ hobserved head hhead
    obtain rfl : repo.head = head := Option.some.inj ((hobserved hbranch).symm.trans hhead)
    exact ⟨.refl _, repo.head_known, hlane.1.ancestor⟩
  · cases observed with
    | none => exact Secures.throw _
    | some head => exact Secures.pure _ fun repo h => h head rfl

/-- What is known of a message when its commit has been built. -/
def Built (site : Site) (envelope : Envelope) (candidateSha : String) (repo : Repo) : Prop :=
  Adds repo.toObjects envelope.expectedHead (envelope.entry candidateSha) ∧ Above site envelope.expectedHead repo

theorem Built.stable {candidateSha : String} : Stable (Grows site) (Built site envelope candidateSha) :=
  fun _ _ hgrows ⟨hadds, habove⟩ => ⟨hadds.mono hgrows.extends_objects, Above.stable _ _ hgrows habove⟩

theorem appends_ask {op : Op} {P : Repo → Prop} {R : op.Reply → Repo → Prop}
    (hop : IsPassive op) (hP : Stable (Grows site) P) (hR : ∀ repo value, P repo → Replies site repo op value → R value repo) :
    Appends site arguments P (ask op) R :=
  Secures.ask hP fun repo reply repo' hrepo hcall => by
    obtain ⟨hext, hhead, hreply⟩ := backend_passive hop hcall
    exact ⟨.of_head hext hhead, fun value hvalue =>
      hR repo' value (hP repo repo' (.of_head hext hhead) hrepo) (hreply value hvalue)⟩

/-- The file that was read at a commit. -/
def Shown (c path : String) (file : Option FileReadback) (repo : Repo) : Prop :=
  ∀ found, file = some found → readFile repo.toObjects c path = some found

theorem Shown.stable {c path : String} {file : Option FileReadback} : Stable (Grows site) (Shown c path file) :=
  fun _ _ hgrows h found hfound => readFile_mono hgrows.extends_objects (h found hfound)

/-- What is returned as appended is certified. -/
theorem appends_verifyNewAppend {control : ControlSnapshot} {binding : LaneBinding}
    {prewriteObservedHead candidateSha treeSha blobSha : String}
    (hbinding : requireBinding runtime control envelope = .ok binding) (hidentity : envelope.identity = site.identity)
    (hbranch : binding.branch = site.branch) :
    Appends site arguments (Built site envelope candidateSha)
      (verifyNewAppend runtime control binding envelope prewriteObservedHead candidateSha treeSha blobSha)
      fun receipt repo => Certified runtime site envelope receipt repo := by
  refine Secures.bind (R := fun head repo => (head = some candidateSha → Landed site (envelope.entry candidateSha) repo))
    (appends_askOr trivial Built.stable ?_) fun head => ?_
  · rintro repo head ⟨hadds, -, hroot⟩ hhead rfl
    have heq : candidateSha = repo.head := Option.some.inj (hhead hbranch)
    exact ⟨⟨_, hadds, hroot⟩, heq ▸ .refl _⟩
  refine Secures.bind (Secures.refuseIf _ _) fun _ => Secures.assume fun hhead => ?_
  refine Secures.weaken (P := Landed site (envelope.entry candidateSha)) ?_ fun repo h => h (not_not.mp hhead)
  refine Secures.bind (appends_ask trivial Landed.stable fun _ _ h _ => h) fun commit => ?_
  cases commit with
  | none => exact Secures.throw _
  | some commit =>
    refine Secures.bind (Secures.refuseIf _ _) fun _ => Secures.weaken ?_ fun _ h => h.1
    refine Secures.bind (Secures.refuseIf _ _) fun _ => Secures.weaken ?_ fun _ h => h.1
    refine Secures.bind (R := fun file repo => Landed site (envelope.entry candidateSha) repo ∧
      Shown candidateSha envelope.path file repo) (appends_ask trivial Landed.stable ?_) fun file => ?_
    · intro repo file hlanded hfile
      exact ⟨hlanded, fun found hfound => hfile.symm.trans hfound⟩
    cases file with
    | none => exact Secures.throw _
    | some file =>
      refine Secures.bind (Secures.refuseIf _ _) fun _ => Secures.assume fun hcontent => ?_
      refine Secures.bind (Secures.lift _) fun _ => Secures.weaken ?_ fun _ h => h.1
      refine Secures.bind (appends_askOr trivial (Landed.stable.and Shown.stable) fun _ _ h _ => h) fun finalControl => ?_
      refine Secures.pure _ fun repo ⟨hlanded, hshown⟩ => ?_
      obtain ⟨hbound, hwriter⟩ := writer_of_requireBinding hbinding
      have hfile := hshown file rfl
      rw [not_or] at hcontent
      exact
        { landed := hlanded
          identity := hbound.trans hidentity
          writer := hwriter
          branch := hbranch
          operationKey := rfl
          messageId := rfl
          path := rfl
          digest := rfl
          file := by rw [← not_not.mp hcontent.1]; exact hfile }

/-- The receipt of an append, when it says that the message was appended. -/
def Returned (runtime : Runtime) (site : Site) (arguments : Arguments) (result : Except Exc SafeAppendReceipt) (repo : Repo) : Prop :=
  ∀ receipt, result = .ok receipt → receipt.result = "APPENDED" → ∃ envelope,
    openEnvelope runtime site.identity arguments.expectedLaneHead arguments.message = .ok envelope ∧
      Certified runtime site envelope receipt repo

theorem Returned.stable {result : Except Exc SafeAppendReceipt} : Stable (Grows site) (Returned runtime site arguments result) := by
  intro repo repo' hgrows h receipt hresult happended
  obtain ⟨envelope, hopen, hcertified⟩ := h receipt hresult happended
  exact ⟨envelope, hopen, Certified.stable _ _ hgrows hcertified⟩

theorem appends_appendEnvelope_certified (hidentity : envelope.identity = site.identity)
    (hexpected : envelope.expectedHead = lower arguments.expectedLaneHead)
    (hann : announced envelope.messageBytes = some envelope.parsed) :
    Appends site arguments (Laned site) (appendEnvelope runtime envelope)
      fun receipt repo => receipt.result = "APPENDED" → Certified runtime site envelope receipt repo := by
  refine Secures.bind (R := fun control repo => Laned site repo ∧ ∀ binding, control.lanes envelope.identity = some binding →
    binding.branch = site.branch) (appends_askOr trivial Laned.stable ?_) fun control => ?_
  · intro repo control hlaned hcontrol
    exact ⟨hlaned, hidentity ▸ hcontrol⟩
  refine Secures.bind (Secures.lift _) fun binding => Secures.assume fun hbinding => ?_
  refine Secures.weaken (P := fun repo => Laned site repo ∧ binding.branch = site.branch) (Secures.assume fun hbranch => ?_)
    fun repo h => ⟨h.1, h.2 binding (lane_of_requireBinding hbinding)⟩
  refine Secures.bind (appends_observeHead_above hbranch) fun observedHead => ?_
  refine Secures.bind ((appends_readHistory hidentity).frame promise_grows Above.stable) fun history => ?_
  split
  · next hdup =>
    by_cases hstale : lower observedHead = envelope.expectedHead
    case neg =>
      exact Secures.bind (Secures.bind (Secures.refuseIf _ _) fun _ => Secures.assume fun h => absurd (not_not.mp h) hstale)
        fun _ => Secures.weaken (P := fun _ => False) (fun _ h => h.elim) fun _ h => h
    have habove : ∀ repo, Above site observedHead repo → Above site envelope.expectedHead repo := by
      intro repo h
      rwa [← hstale, repo.lower_eq h.1]
    refine Secures.weaken (P := fun repo => Seen site history observedHead repo ∧ Above site envelope.expectedHead repo) ?_
      fun repo h => ⟨h.1, habove repo h.2⟩
    refine Secures.bind ((appends_buildCandidate hann).frame promise_grows Above.stable) fun (blobSha, treeSha, candidateSha) => ?_
    refine Secures.weaken (P := fun repo => ((Seen site history envelope.expectedHead repo ∧
      Adds repo.toObjects envelope.expectedHead (envelope.entry candidateSha)) ∧ Built site envelope candidateSha repo) ∧
      validatePredecessor history envelope.parsed = .ok ()) (Secures.assume fun hvalid => ?_)
      fun repo ⟨⟨h, hvalid⟩, habove⟩ => ⟨⟨h, h.2, habove⟩, hvalid⟩
    refine Secures.bind ((appends_moveRefOrReconcile hexpected hvalid hdup).frame promise_grows Built.stable) fun _ => ?_
    have hverify : Appends site arguments (Built site envelope candidateSha)
        (verifyNewAppend runtime control binding envelope observedHead candidateSha treeSha blobSha)
        fun receipt repo => receipt.result = "APPENDED" → Certified runtime site envelope receipt repo :=
      (appends_verifyNewAppend hbinding hidentity hbranch).mono fun _ _ h _ => h
    exact hverify.weaken fun repo h => h.2
  · next existing hdup =>
    split
    · exact Secures.throw _
    · have hreconstruct : Appends site arguments (fun repo => Seen site history observedHead repo ∧ Above site observedHead repo)
          (reconstructExisting runtime control binding envelope observedHead existing)
          fun receipt _ => receipt.result = "ALREADY_COMMITTED" :=
        Secures.yields (only_reconstructExisting ..) (yields_reconstructExisting _ _ _ _ _ _) fun _ _ _ _ hop hcall =>
          have ⟨hext, hhead, _⟩ := backend_passive hop hcall
          .of_head hext hhead
      refine hreconstruct.mono fun receipt repo h happended => ?_
      rw [h] at happended
      exact absurd happended (by decide)
  · exact Secures.throw _

/-- Every append to the lane that returns a receipt of an appended message is certified. -/
theorem secure_appendBusMessageV1 (hlaned : Laned site repo) :
    Secure (Backend site) (Grows site) (Promise site arguments)
      (appendBusMessageV1 runtime site.identity arguments.expectedLaneHead arguments.message)
      (Returned runtime site arguments) repo := by
  have happends : Appends site arguments (Laned site)
      (appendBusMessageV1 runtime site.identity arguments.expectedLaneHead arguments.message)
      fun receipt repo => Returned runtime site arguments (.ok receipt) repo := by
    refine Secures.bind (Secures.lift _) fun envelope => Secures.assume fun hopen => ?_
    obtain ⟨-, -, hidentity, hexpected, -, -⟩ := openEnvelope_ok hopen
    refine (appends_appendEnvelope_certified hidentity hexpected (announced_of_openEnvelope hopen)).mono
      fun receipt repo h receipt' hreceipt happended => ?_
    cases hreceipt
    exact ⟨envelope, hopen, h happended⟩
  refine (happends repo hlaned).mono fun result repo h => ?_
  cases result with
  | ok receipt => exact h
  | error exc => exact fun receipt hreceipt => by cases hreceipt

/-! ### The sources of a later append -/

/-- A message of the history is the entry's. -/
structure Records (runtime : Runtime) (repo : Repo) (entry : Entry) (message : CommittedMessage) : Prop where
  messageId : message.messageId = entry.messageId
  digest : message.messageSha256 = runtime.sha256 entry.content
  commitSha : message.commitSha = entry.commitSha
  path : message.path = entry.path
  /-- Its blob, when the history has one. -/
  blobSha : message.blobSha = "" ∨
    ∃ content, readFile repo.toObjects entry.commitSha entry.path = some ⟨message.blobSha, content⟩

/-- A history that is complete, and lists each message of the identity once. -/
structure CompleteHistory (runtime : Runtime) (site : Site) (repo : Repo) (entries : List Entry) (history : IdentityHistory) : Prop where
  complete : history.complete = true
  lists : ∃ earlier listed, earlier.map CommittedMessage.messageId = site.before ∧
    List.Forall₂ (Records runtime repo) entries listed ∧ history.messages.Perm (earlier ++ listed)

/-- What is read of a commit: for one with one parent, the paths that differ from its tree. -/
structure ShowsCommit (objects : Objects String) (c : String) (commit : CommitReadback) : Prop where
  parents : objects.graph.parents c = some commit.parentShas
  tree : objects.treeOf c = commit.treeSha
  changed : ∀ parent files files', commit.parentShas = [parent] → objects.TreeAt parent files → objects.TreeAt c files' →
    ∀ path, path ∈ commit.changedPaths ↔ path ∈ (diffTree files files').map Prod.snd

/-- What a source that is up replies. -/
def Answers (runtime : Runtime) (site : Site) (binding : LaneBinding) (repo : Repo) : (op : Op) → op.Reply → Prop
  | .readControl, control => control.lanes site.identity = some binding
  | .readIdentity identity, history => identity = site.identity →
    ∃ entries, IsLane site repo entries ∧ CompleteHistory runtime site repo entries history
  | .readBranchHead branch, found => branch = site.branch → found = some repo.head
  | .readFileAtCommit commitSha path, file => file = readFile repo.toObjects commitSha path
  | .readCommit commitSha, some commit => ShowsCommit repo.toObjects commitSha commit
  | .readCommit commitSha, none => ¬ repo.graph.Known commitSha
  | _, _ => True

/-- The sources of a later append, all up: others may append before they reply. -/
def Faithful (runtime : Runtime) (site : Site) (binding : LaneBinding) : Environment Sources Exc Repo :=
  fun op repo reply repo' => Grows site repo repo' ∧ ∃ value, reply = .ok value ∧ Answers runtime site binding repo' op value

/-- The call creates an object, or updates a ref. -/
def IsWrite : Op → Prop
  | .createBlob _ | .createTree _ _ _ | .createCommit _ _ _ | .updateRefNonForce _ _ => True
  | _ => False

variable {binding : LaneBinding} {α β : Type} {answers : List (Answer Sources Exc)}

theorem runs_faithful_bind {op : Op} {handler : Exc → Exc} {f : op.Reply → Program β} {result : Except Exc β}
    (h : Runs (Faithful runtime site binding) (askOr op handler >>= f) repo answers result repo') :
    ∃ value mid rest, Grows site repo mid ∧ Answers runtime site binding mid op value ∧
      Runs (Faithful runtime site binding) (f value) mid rest result repo' ∧ answers = ⟨op, .ok value⟩ :: rest := by
  obtain ⟨reply, mid, rest, ⟨hgrows, value, rfl, hvalue⟩, rfl, hrest⟩ := runs_call.mp h
  exact ⟨value, mid, rest, hgrows, hvalue, hrest, rfl⟩

theorem messageIds_of_records {listed : List CommittedMessage} (h : List.Forall₂ (Records runtime repo) entries listed) :
    listed.map CommittedMessage.messageId = entries.map Entry.messageId := by
  induction h with
  | nil => rfl
  | cons hrecords _ ih => rw [List.map_cons, List.map_cons, hrecords.messageId, ih]

/-- The messages of an id that one message has, and neither those before it nor after it. -/
theorem filter_eq_singleton {earlier later : List CommittedMessage} {message : CommittedMessage} {id : String}
    (hid : message.messageId = id) (hearlier : id ∉ earlier.map CommittedMessage.messageId)
    (hlater : id ∉ later.map CommittedMessage.messageId) :
    (earlier ++ message :: later).filter (fun item => item.messageId = id) = [message] := by
  have hnone : ∀ list : List CommittedMessage, id ∉ list.map CommittedMessage.messageId →
      list.filter (fun item => item.messageId = id) = [] := by
    intro list hlist
    rw [List.filter_eq_nil_iff]
    intro item hmem heq
    exact hlist (of_decide_eq_true heq ▸ List.mem_map_of_mem hmem)
  rw [List.filter_append, List.filter_cons_of_pos (by simpa using hid), hnone earlier hearlier, hnone later hlater]
  rfl

/-- The history has the message of an entry once. -/
theorem CompleteHistory.duplicates {history : IdentityHistory} (h : CompleteHistory runtime site repo entries history)
    (hlane : IsLane site repo entries) (hmem : entry ∈ entries) {envelope : Envelope}
    (hid : envelope.parsed.messageId = entry.messageId) :
    ∃ existing, Append.duplicates history envelope = [existing] ∧ Records runtime repo entry existing := by
  obtain ⟨earlier, listed, hbefore, hrecords, hperm⟩ := h.lists
  obtain ⟨first, last, rfl⟩ := List.append_of_mem hmem
  have hfirst := List.forall₂_take first.length hrecords
  have hlast := List.forall₂_drop first.length hrecords
  rw [List.take_left' rfl] at hfirst
  rw [List.drop_left' rfl] at hlast
  obtain ⟨existing, rest, hexisting, hrest, hdrop⟩ := List.forall₂_cons_left_iff.mp hlast
  have hlisted : earlier ++ listed = (earlier ++ listed.take first.length) ++ existing :: rest := by
    rw [List.append_assoc, ← hdrop, List.take_append_drop]
  have hnew := (hlane.2 first entry last rfl).1
  have hbelow : entry.messageId ∉ (earlier ++ listed.take first.length).map CommittedMessage.messageId := by
    rwa [List.map_append, hbefore, messageIds_of_records hfirst]
  have habove : entry.messageId ∉ rest.map CommittedMessage.messageId := by
    rw [messageIds_of_records hrest]
    intro hlater
    obtain ⟨entry', hmem', heq⟩ := List.mem_map.mp hlater
    obtain ⟨between, rest', rfl⟩ := List.append_of_mem hmem'
    refine (hlane.2 (first ++ entry :: between) entry' rest' (by simp)).1 ?_
    rw [heq, messageIds]
    simp
  refine ⟨existing, ?_, hexisting⟩
  have hfilter := hperm.filter fun item => item.messageId = envelope.parsed.messageId
  rw [hlisted, hid, filter_eq_singleton hexisting.messageId hbelow habove] at hfilter
  rw [Append.duplicates, hid]
  exact List.perm_singleton.mp hfilter

/-! ### The retry -/

/-- The binding that the receipt shows. -/
def SafeAppendReceipt.laneBinding (receipt : SafeAppendReceipt) : LaneBinding :=
  ⟨receipt.identity, receipt.derivedWriter, receipt.laneRef⟩

theorem runs_refuseIf_bind {σ : Type} {env : Environment Sources Exc σ} {p : Prop} [Decidable p] {exc : Exc}
    {f : Unit → Program β} {s t : σ} {result : Except Exc β} (hp : ¬ p)
    (h : Runs env (refuseIf p exc >>= f) s answers result t) : Runs env (f ⟨⟩) s answers result t := by
  rwa [refuseIf, Prog.refuseIf, if_neg hp] at h

theorem runs_observeHead {branch : String} (hbranch : branch = site.branch) {result : Except Exc String}
    (h : Runs (Faithful runtime site binding) (observeHead branch) repo answers result repo') :
    Grows site repo repo' ∧ result = .ok repo'.head ∧ ∃ reply, answers = [⟨.readBranchHead branch, reply⟩] := by
  obtain ⟨observed, mid, rest, hgrows, hobserved, hrest, rfl⟩ := runs_faithful_bind h
  rw [show observed = some mid.head from hobserved hbranch] at hrest
  obtain ⟨rfl, rfl, rfl⟩ := runs_done.mp hrest
  exact ⟨hgrows, rfl, _, rfl⟩

theorem runs_readHistory {identity : String} (hidentity : identity = site.identity) {result : Except Exc IdentityHistory}
    (h : Runs (Faithful runtime site binding) (readHistory identity) repo answers result repo') :
    Grows site repo repo' ∧ ∃ history entries, result = .ok history ∧ IsLane site repo' entries ∧
      CompleteHistory runtime site repo' entries history ∧ ∃ reply, answers = [⟨.readIdentity identity, reply⟩] := by
  obtain ⟨history, mid, rest, hgrows, hhistory, hrest, rfl⟩ := runs_faithful_bind h
  obtain ⟨entries, hlane, hcomplete⟩ := hhistory hidentity
  have hrest := runs_refuseIf_bind (by rw [hcomplete.complete]; decide) hrest
  obtain ⟨rfl, rfl, rfl⟩ := runs_done.mp hrest
  exact ⟨hgrows, history, entries, rfl, hlane, hcomplete, _, rfl⟩

/-- A later append under the id of a certified message finds it in the history. -/
theorem later_runs (later : Envelope) {result : Except Exc SafeAppendReceipt} (hcertified : Certified runtime site envelope receipt repo)
    (hidentity : later.identity = site.identity) (hid : later.parsed.messageId = envelope.parsed.messageId)
    (hwriter : runtime.casefold later.parsed.writer = runtime.casefold receipt.derivedWriter)
    (hrun : Runs (Faithful runtime site receipt.laneBinding) (appendEnvelope runtime later) repo answers result repo') :
    ∃ control observedHead existing mid first rest, answers = first ++ rest ∧ (∀ answer ∈ first, ¬ IsWrite answer.op) ∧
      Certified runtime site envelope receipt mid ∧ Records runtime mid (envelope.entry receipt.commitSha) existing ∧
      Runs (Faithful runtime site receipt.laneBinding)
        (if existing.messageSha256 ≠ later.digest runtime then throw (preflight "MESSAGE_ID_COLLISION")
          else reconstructExisting runtime control receipt.laneBinding later observedHead existing) mid rest result repo' := by
  obtain ⟨control, mid₁, rest₁, hgrows₁, hcontrol, hrun₁, rfl⟩ := runs_faithful_bind hrun
  have hbinding : requireBinding runtime control later = .ok receipt.laneBinding := by
    rw [requireBinding, hidentity, show control.lanes site.identity = some receipt.laneBinding from hcontrol]
    have hidentity' : ¬ receipt.laneBinding.identity ≠ site.identity := not_not.mpr hcertified.identity
    have hwriter' : ¬ runtime.casefold later.parsed.writer ≠ runtime.casefold receipt.laneBinding.writer := not_not.mpr hwriter
    dsimp only
    rw [if_neg hidentity', if_neg hwriter']
  rw [hbinding] at hrun₁
  change Runs _ (observeHead receipt.laneRef >>= _) _ _ _ _ at hrun₁
  rcases runs_bind.mp hrun₁ with ⟨exc, hobserve, -⟩ | ⟨observedHead, mid₂, first₂, rest₂, hobserve, hrun₂, rfl⟩
  · cases (runs_observeHead hcertified.branch hobserve).2.1
  obtain ⟨hgrows₂, -, reply₂, rfl⟩ := runs_observeHead hcertified.branch hobserve
  rcases runs_bind.mp hrun₂ with ⟨exc, hread, -⟩ | ⟨history, mid₃, first₃, rest₃, hread, hrun₃, rfl⟩
  · obtain ⟨-, _, _, hresult, -⟩ := runs_readHistory hidentity hread
    cases hresult
  obtain ⟨hgrows₃, _, entries, hresult, hlane, hcomplete, reply₃, rfl⟩ := runs_readHistory hidentity hread
  cases hresult
  have hmid := Certified.stable _ _ hgrows₃ (Certified.stable _ _ hgrows₂ (Certified.stable _ _ hgrows₁ hcertified))
  obtain ⟨existing, hdup, hrecords⟩ := hcomplete.duplicates hlane (hmid.landed.mem hlane) hid
  rw [hdup] at hrun₃
  refine ⟨control, observedHead, existing, mid₃,
    [⟨.readControl, .ok control⟩, ⟨.readBranchHead receipt.laneBinding.branch, reply₂⟩, ⟨.readIdentity later.identity, reply₃⟩], rest₃,
    rfl, fun answer hmem => ?_, hmid, hrecords, hrun₃⟩
  simp only [List.mem_cons, List.not_mem_nil, or_false] at hmem
  rcases hmem with rfl | rfl | rfl <;> exact id

theorem runs_faithful_ask {op : Op} {f : op.Reply → Program β} {result : Except Exc β}
    (h : Runs (Faithful runtime site binding) (ask op >>= f) repo answers result repo') :
    ∃ value mid rest, Grows site repo mid ∧ Answers runtime site binding mid op value ∧
      Runs (Faithful runtime site binding) (f value) mid rest result repo' ∧ answers = ⟨op, .ok value⟩ :: rest := by
  obtain ⟨reply, mid, rest, ⟨hgrows, value, rfl, hvalue⟩, rfl, hrest⟩ := runs_call.mp h
  exact ⟨value, mid, rest, hgrows, hvalue, hrest, rfl⟩

/-- A commit that adds an entry has its path among those it changes. -/
theorem Adds.shows {objects : Objects String} {parent : String} {commit : CommitReadback} (h : Adds objects parent entry)
    (hshows : ShowsCommit objects entry.commitSha commit) : commit.parentShas = [parent] ∧ entry.path ∈ commit.changedPaths := by
  obtain ⟨hparents, ⟨files, blob, hparent, hnone, hcommit, -⟩, -⟩ := h
  have hshas : commit.parentShas = [parent] := Option.some.inj (hshows.parents.symm.trans hparents)
  refine ⟨hshas, (hshows.changed parent files _ hshas hparent hcommit _).mpr ?_⟩
  have hadded : (DiffStatus.added, entry.path) ∈ diffTree files (files.insert entry.path blob) := by
    rw [mem_diffTree, hnone, AList.lookup_insert]
    rfl
  exact List.mem_map_of_mem hadded

/-- What says of itself what was parsed is verified. -/
theorem verifyMetadata_of_announced {parsed : ParsedMessage} {content : Bytes} (h : announced content = some parsed) :
    verifyMetadata runtime parsed content = .ok () := by
  obtain ⟨text, hdecode, hparse⟩ := Option.bind_eq_some_iff.mp h
  cases hmessage : parseMessage text with
  | error exc => rw [hmessage] at hparse; cases hparse
  | ok parsed' =>
    rw [hmessage] at hparse
    cases hparse
    simp [verifyMetadata, asExactUtf8, hdecode, hmessage]

/-- The receipt of a certified message is made again. -/
theorem reconstruct_runs (later : Envelope) {control : ControlSnapshot} {observedHead : String} {existing : CommittedMessage}
    {result : Except Exc SafeAppendReceipt} (hcertified : Certified runtime site envelope receipt repo)
    (hrecords : Records runtime repo (envelope.entry receipt.commitSha) existing)
    (hbytes : later.messageBytes = envelope.messageBytes) (hann : announced later.messageBytes = some later.parsed)
    (hrun : Runs (Faithful runtime site receipt.laneBinding)
      (reconstructExisting runtime control receipt.laneBinding later observedHead existing) repo answers result repo') :
    (∀ answer ∈ answers, ¬ IsWrite answer.op) ∧ ∃ again, result = .ok again ∧ again.result = "ALREADY_COMMITTED" ∧
      again.operationKey = later.operationKey runtime ∧ again.commitSha = receipt.commitSha ∧ again.path = receipt.path ∧
      again.messageBlobSha = receipt.messageBlobSha ∧ again.messageSha256 = later.digest runtime := by
  have hpath : existing.path = receipt.path := hrecords.path.trans hcertified.path.symm
  have hcommit : existing.commitSha = receipt.commitSha := hrecords.commitSha
  obtain ⟨commit, mid₁, rest₁, hgrows₁, hread, hrun₁, rfl⟩ := runs_faithful_ask hrun
  obtain ⟨file, mid₂, rest₂, hgrows₂, hfile, hrun₂, rfl⟩ := runs_faithful_ask hrun₁
  have hmid₁ := Certified.stable _ _ hgrows₁ hcertified
  have hmid₂ := Certified.stable _ _ hgrows₂ hmid₁
  obtain ⟨parent, hadds, -⟩ := hmid₁.landed.adds
  have hfound : file = some ⟨receipt.messageBlobSha, envelope.messageBytes⟩ := by
    rw [show file = readFile mid₂.toObjects existing.commitSha existing.path from hfile, hcommit, hpath]
    exact hmid₂.file
  subst hfound
  cases commit with
  | none =>
    have hknown : mid₁.graph.Known existing.commitSha := by
      rw [hcommit]
      exact Option.isSome_iff_exists.mpr ⟨_, hadds.parents⟩
    exact absurd hknown hread
  | some commit =>
    have hshows : ShowsCommit mid₁.toObjects (envelope.entry receipt.commitSha).commitSha commit := hcommit ▸ hread
    obtain ⟨hparents, hchanged⟩ := hadds.shows hshows
    obtain ⟨parentShas, treeSha, changedPaths⟩ := commit
    obtain rfl : parentShas = [parent] := hparents
    have hblob : ¬ (existing.blobSha ≠ "" ∧ existing.blobSha ≠ receipt.messageBlobSha) := by
      rintro ⟨hne, hother⟩
      obtain ⟨content, hblob⟩ := hrecords.blobSha.resolve_left hne
      have hfile := hcertified.file
      rw [hcertified.path] at hfile
      have heq := Option.some.inj (hblob.symm.trans hfile)
      exact hother (FileReadback.mk.inj heq).1
    have hrun₃ := runs_refuseIf_bind (not_not.mpr (hpath.trans hcertified.path ▸ hchanged)) hrun₂
    have hrun₄ := runs_refuseIf_bind (p := envelope.messageBytes ≠ later.messageBytes ∨
      runtime.sha256 envelope.messageBytes ≠ later.digest runtime) (by rw [Envelope.digest, hbytes]; simp) hrun₃
    have hrun₅ := runs_refuseIf_bind hblob hrun₄
    rw [verifyMetadata_of_announced (hbytes ▸ hann)] at hrun₅
    obtain ⟨finalControl, mid₃, rest₃, -, -, hrun₆, rfl⟩ := runs_faithful_bind hrun₅
    obtain ⟨rfl, rfl, rfl⟩ := runs_done.mp hrun₆
    refine ⟨fun answer hmem => ?_, _, rfl, rfl, rfl, hcommit, hpath, rfl, rfl⟩
    simp only [List.mem_cons, List.not_mem_nil, or_false] at hmem
    rcases hmem with rfl | rfl | rfl <;> exact id

/-! ### Sources that are up have a reply -/

/-- A complete history of a lane. -/
def laneHistory (runtime : Runtime) (site : Site) (entries : List Entry) : IdentityHistory where
  complete := true
  tipMessageIds := []
  messages := site.before.map (fun id => ⟨id, "", "", "", "", none, none⟩) ++ entries.map fun entry =>
    ⟨entry.messageId, runtime.sha256 entry.content, entry.commitSha, entry.path, "", entry.prevMessageId, none⟩

theorem completeHistory_laneHistory : CompleteHistory runtime site repo entries (laneHistory runtime site entries) where
  complete := rfl
  lists := by
    refine ⟨_, _, ?_, ?_, .refl _⟩
    · rw [List.map_map]
      exact List.map_id _
    · rw [List.forall₂_map_right_iff, List.forall₂_same]
      exact fun entry _ => ⟨rfl, rfl, rfl, rfl, .inl rfl⟩

theorem exists_showsCommit {objects : Objects String} {c : String} (hc : objects.graph.Known c) :
    ∃ commit, ShowsCommit objects c commit := by
  obtain ⟨parents, hparents⟩ := Option.isSome_iff_exists.mp hc
  obtain ⟨files', htree'⟩ := Objects.exists_treeAt hc
  by_cases hone : ∃ parent files, parents = [parent] ∧ objects.TreeAt parent files
  · obtain ⟨parent, files, rfl, htree⟩ := hone
    refine ⟨⟨[parent], objects.treeOf c, (diffTree files files').map Prod.snd⟩, hparents, rfl, ?_⟩
    intro parent₁ files₁ files₂ hone htree₁ htree₂ path
    obtain rfl := List.singleton_inj.mp hone
    rw [htree₁.unique htree, htree₂.unique htree']
  · refine ⟨⟨parents, objects.treeOf c, []⟩, hparents, rfl, ?_⟩
    intro parent₁ files₁ files₂ hshas htree₁
    exact absurd ⟨parent₁, files₁, hshas, htree₁⟩ hone

theorem exists_answers (op : Op) (hlaned : Laned site repo) : ∃ value, Answers runtime site binding repo op value := by
  cases op with
  | readControl => exact ⟨⟨"", "", "", fun _ => some binding⟩, rfl⟩
  | readIdentity identity =>
    obtain ⟨entries, hlane⟩ := hlaned
    exact ⟨laneHistory runtime site entries, fun _ => ⟨entries, hlane, completeHistory_laneHistory⟩⟩
  | readBranchHead branch => exact ⟨some repo.head, fun _ => rfl⟩
  | readFileAtCommit commitSha path => exact ⟨_, rfl⟩
  | readCommit commitSha =>
    by_cases hknown : repo.graph.Known commitSha
    · obtain ⟨commit, hshows⟩ := exists_showsCommit hknown
      exact ⟨some commit, hshows⟩
    · exact ⟨none, hknown⟩
  | createBlob content => exact ⟨"", trivial⟩
  | createTree baseCommitSha path blobSha => exact ⟨"", trivial⟩
  | createCommit message treeSha parentSha => exact ⟨"", trivial⟩
  | updateRefNonForce branch candidateSha => exact ⟨true, trivial⟩
  | isAncestor ancestor descendant => exact ⟨none, trivial⟩

/-! ### Every later append -/

/-- The bytes of a message, which a text with a surrogate has not. -/
def Utf8.data (message : Utf8) : Option Bytes :=
  match message with
  | .str text => (scalars text).map encode
  | .bytes data => some data

theorem asExactUtf8_of_data {message : Utf8} {data : Bytes} {text : List Char} (h : message.data = some data)
    (hdecode : decode data = some text) : asExactUtf8 runtime message = .ok (text, data) := by
  cases message with
  | str chars =>
    obtain ⟨text', hscalars, rfl⟩ := Option.map_eq_some_iff.mp h
    rw [decode_encode, Option.some.injEq] at hdecode
    simp [asExactUtf8, hscalars, hdecode]
  | bytes data' =>
    obtain rfl : data' = data := Option.some.inj h
    simp [asExactUtf8, hdecode]

theorem data_of_asExactUtf8 {message : Utf8} {data : Bytes} {text : List Char}
    (h : asExactUtf8 runtime message = .ok (text, data)) : message.data = some data := by
  cases message with
  | str chars =>
    rw [asExactUtf8] at h
    cases hscalars : scalars chars with
    | none => rw [hscalars] at h; cases h
    | some text' =>
      rw [hscalars] at h
      cases h
      rw [Utf8.data, hscalars]
      rfl
  | bytes data' =>
    rw [asExactUtf8] at h
    split at h
    · cases h
      rfl
    · cases h

/-- A message under an id that was opened opens. -/
theorem openEnvelope_of_data {expectedLaneHead expectedLaneHead' : String} {message message' : Utf8} {data : Bytes} {text : List Char}
    {parsed : ParsedMessage} (hopen : openEnvelope runtime site.identity expectedLaneHead message = .ok envelope)
    (hhead : isSha40 expectedLaneHead'.toList = true) (hdata : message'.data = some data) (hdecode : decode data = some text)
    (hparse : parseMessage text = .ok parsed) (hid : parsed.messageId = envelope.parsed.messageId) :
    openEnvelope runtime site.identity expectedLaneHead' message' =
      .ok ⟨site.identity, lower expectedLaneHead', data, parsed⟩ := by
  obtain ⟨hidentity, -, -, -, -, hvalid⟩ := openEnvelope_ok hopen
  rw [openEnvelope_eq hidentity hhead, asExactUtf8_of_data hdata hdecode]
  simp only [Except.bind, hparse, hid, hvalid]

/-- An append that has returned in a run is certified from then on. -/
theorem certified_of_run {ι : Type} [DecidableEq ι] {w w' w'' : World ι} {es es' : List (PoolEvent ι Arguments)} {i : ι}
    (hidle : ∀ i, ∃ exc, w.program i = .done (.error exc)) (hlane : IsLane site w.state entries)
    (hrun : Run (AppendStep runtime site) w es w') (hdone : w'.program i = .done (.ok receipt))
    (happended : receipt.result = "APPENDED") (hlater : Run (AppendStep runtime site) w' es' w'') :
    Laned site w''.state ∧ ∃ envelope,
      openEnvelope runtime site.identity (w'.data i).expectedLaneHead (w'.data i).message = .ok envelope ∧
        Certified runtime site envelope receipt w''.state := by
  have hother : ∀ repo repo', Others repo repo' → Grows site repo repo' := fun _ _ h => Grows.of_head h.1 h.2
  have hmeets : w.Meets (Backend site) (Grows site) (Promise site) (Returned runtime site) := fun j => by
    obtain ⟨exc, hj⟩ := hidle j
    rw [hj]
    exact fun receipt hreceipt => by cases hreceipt
  obtain ⟨hmeets', hgrows⟩ := pool_run_meets Grows.refl (fun _ _ _ => Grows.trans) (fun _ => promise_grows) hother
    (fun _ _ => Returned.stable) Laned.stable (fun _ _ => secure_appendBusMessageV1) hmeets ⟨entries, hlane⟩ hrun
  have hlaned' := Laned.stable _ _ hgrows ⟨entries, hlane⟩
  obtain ⟨-, hgrows'⟩ := pool_run_meets Grows.refl (fun _ _ _ => Grows.trans) (fun _ => promise_grows) hother
    (fun _ _ => Returned.stable) Laned.stable (fun _ _ => secure_appendBusMessageV1) hmeets' hlaned' hlater
  obtain ⟨envelope, hopen, hcertified⟩ := hmeets'.done hdone receipt rfl happended
  exact ⟨Laned.stable _ _ hgrows' hlaned', envelope, hopen, Certified.stable _ _ hgrows' hcertified⟩

theorem runs_of_opened {σ : Type} {env : Environment Sources Exc σ} {identity expectedLaneHead : String} {message : Utf8} {s t : σ}
    {result : Except Exc SafeAppendReceipt} (hopen : openEnvelope runtime identity expectedLaneHead message = .ok envelope)
    (h : Runs env (appendBusMessageV1 runtime identity expectedLaneHead message) s answers result t) :
    Runs env (appendEnvelope runtime envelope) s answers result t := by
  rw [appendBusMessageV1, hopen] at h
  exact h

theorem operationKey_congr {later : Envelope} (hidentity : later.identity = envelope.identity)
    (hparsed : later.parsed = envelope.parsed) (hbytes : later.messageBytes = envelope.messageBytes) :
    later.operationKey runtime = envelope.operationKey runtime := by
  unfold Envelope.operationKey
  simp only [Envelope.digest, hidentity, hparsed, hbytes]

/-- A later append of the bytes of a certified message. -/
theorem retry_runs {expectedLaneHead expectedLaneHead' : String} {message message' : Utf8} {result : Except Exc SafeAppendReceipt}
    (hopen : openEnvelope runtime site.identity expectedLaneHead message = .ok envelope)
    (hcertified : Certified runtime site envelope receipt repo) (hhead : isSha40 expectedLaneHead'.toList = true)
    (hsame : message'.data = message.data)
    (hrun : Runs (Faithful runtime site receipt.laneBinding) (appendBusMessageV1 runtime site.identity expectedLaneHead' message')
      repo answers result repo') :
    (∀ answer ∈ answers, ¬ IsWrite answer.op) ∧ ∃ again, result = .ok again ∧ again.result = "ALREADY_COMMITTED" ∧
      again.operationKey = receipt.operationKey ∧ again.commitSha = receipt.commitSha ∧ again.path = receipt.path ∧
      again.messageBlobSha = receipt.messageBlobSha ∧ again.messageSha256 = receipt.messageSha256 := by
  obtain ⟨-, -, hidentity, -, ⟨text, hutf8, hparse⟩, -⟩ := openEnvelope_ok hopen
  have hopen' := openEnvelope_of_data hopen hhead (hsame.trans (data_of_asExactUtf8 hutf8)) (asExactUtf8_ok hutf8) hparse rfl
  obtain ⟨control, observedHead, existing, mid, first, rest, rfl, hfirst, hmid, hrecords, hrest⟩ :=
    later_runs ⟨site.identity, lower expectedLaneHead', envelope.messageBytes, envelope.parsed⟩ hcertified rfl rfl
      hcertified.writer (runs_of_opened hopen' hrun)
  have hdigest : ¬ existing.messageSha256 ≠
      Envelope.digest runtime ⟨site.identity, lower expectedLaneHead', envelope.messageBytes, envelope.parsed⟩ :=
    not_not.mpr hrecords.digest
  rw [if_neg hdigest] at hrest
  obtain ⟨hreads, again, rfl, hresult, hkey, hcommit, hpath, hblob, hsha⟩ :=
    reconstruct_runs ⟨site.identity, lower expectedLaneHead', envelope.messageBytes, envelope.parsed⟩ hmid hrecords rfl
      (announced_of_openEnvelope hopen') hrest
  refine ⟨fun answer hmem => (List.mem_append.mp hmem).elim (hfirst answer) (hreads answer), again, rfl, hresult, ?_,
    hcommit, hpath, hblob, ?_⟩
  · rw [hkey, hcertified.operationKey]
    exact operationKey_congr hidentity.symm rfl rfl
  · rw [hsha, hcertified.digest]
    rfl

/-- A later append of other bytes under the id of a certified message, by its writer. -/
theorem collision_runs {expectedLaneHead expectedLaneHead' : String} {message message' : Utf8} {result : Except Exc SafeAppendReceipt}
    {data : Bytes} {text : List Char} {parsed : ParsedMessage}
    (hopen : openEnvelope runtime site.identity expectedLaneHead message = .ok envelope)
    (hcertified : Certified runtime site envelope receipt repo) (hhead : isSha40 expectedLaneHead'.toList = true)
    (hdata : message'.data = some data) (hdecode : decode data = some text) (hparse : parseMessage text = .ok parsed)
    (hid : parsed.messageId = receipt.messageId)
    (hwriter : runtime.casefold parsed.writer = runtime.casefold receipt.derivedWriter)
    (hdigest : runtime.sha256 data ≠ runtime.sha256 envelope.messageBytes)
    (hrun : Runs (Faithful runtime site receipt.laneBinding) (appendBusMessageV1 runtime site.identity expectedLaneHead' message')
      repo answers result repo') :
    (∀ answer ∈ answers, ¬ IsWrite answer.op) ∧ result = .error (preflight "MESSAGE_ID_COLLISION") := by
  rw [hcertified.messageId] at hid
  have hopen' := openEnvelope_of_data hopen hhead hdata hdecode hparse hid
  obtain ⟨control, observedHead, existing, mid, first, rest, rfl, hfirst, hmid, hrecords, hrest⟩ :=
    later_runs ⟨site.identity, lower expectedLaneHead', data, parsed⟩ hcertified rfl hid hwriter (runs_of_opened hopen' hrun)
  have hother : existing.messageSha256 ≠ Envelope.digest runtime ⟨site.identity, lower expectedLaneHead', data, parsed⟩ := by
    rw [hrecords.digest]
    exact hdigest.symm
  rw [if_pos hother] at hrest
  obtain ⟨rfl, rfl, rfl⟩ := runs_throw.mp hrest
  exact ⟨by rwa [List.append_nil], rfl⟩

/-- **After an append that returned `APPENDED`, and whatever was appended since, a later
append of the same bytes returns the same operation, commit, path, blob and digest as
`ALREADY_COMMITTED`; one of other bytes under the same id, by the lane's writer, raises
`MESSAGE_ID_COLLISION`; and neither writes.** -/
theorem retry_idempotent {ι : Type} [DecidableEq ι] (runtime : Runtime) (site : Site) (w w' w'' : World ι) (entries : List Entry)
    (es es' : List (PoolEvent ι Arguments)) (i : ι) (receipt : SafeAppendReceipt)
    (hidle : ∀ i, ∃ exc, w.program i = .done (.error exc)) (hlane : IsLane site w.state entries)
    (hrun : Run (AppendStep runtime site) w es w') (hdone : w'.program i = .done (.ok receipt))
    (happended : receipt.result = "APPENDED") (hlater : Run (AppendStep runtime site) w' es' w'')
    (expectedLaneHead : String) (hhead : isSha40 expectedLaneHead.toList = true) (message : Utf8) :
    (∃ answers result repo, Runs (Faithful runtime site receipt.laneBinding)
      (appendBusMessageV1 runtime site.identity expectedLaneHead message) w''.state answers result repo) ∧
    ∀ answers result repo, Runs (Faithful runtime site receipt.laneBinding)
      (appendBusMessageV1 runtime site.identity expectedLaneHead message) w''.state answers result repo →
      (message.data = (w'.data i).message.data →
        (∀ answer ∈ answers, ¬ IsWrite answer.op) ∧ ∃ again, result = .ok again ∧ again.result = "ALREADY_COMMITTED" ∧
          again.operationKey = receipt.operationKey ∧ again.commitSha = receipt.commitSha ∧ again.path = receipt.path ∧
          again.messageBlobSha = receipt.messageBlobSha ∧ again.messageSha256 = receipt.messageSha256) ∧
      ∀ data text parsed, message.data = some data → decode data = some text → parseMessage text = .ok parsed →
        parsed.messageId = receipt.messageId → runtime.casefold parsed.writer = runtime.casefold receipt.derivedWriter →
        some data ≠ (w'.data i).message.data →
        (∀ data', (w'.data i).message.data = some data' → runtime.sha256 data = runtime.sha256 data' → data = data') →
        (∀ answer ∈ answers, ¬ IsWrite answer.op) ∧ result = .error (preflight "MESSAGE_ID_COLLISION") := by
  obtain ⟨hlaned, envelope, hopen, hcertified⟩ := certified_of_run hidle hlane hrun hdone happended hlater
  obtain ⟨-, -, -, -, ⟨text₀, hutf8, -⟩, -⟩ := openEnvelope_ok hopen
  have hdata₀ := data_of_asExactUtf8 hutf8
  refine ⟨exists_runs (J := Laned site) (fun op repo h => ?_) _ _ hlaned, fun answers result repo hruns => ⟨fun hsame => ?_, ?_⟩⟩
  · obtain ⟨value, hvalue⟩ := exists_answers op h
    exact ⟨.ok value, repo, ⟨Grows.refl repo, value, rfl, hvalue⟩, h⟩
  · exact retry_runs hopen hcertified hhead hsame hruns
  · intro data text parsed hdata hdecode hparse hid hwriter hother hcollision
    refine collision_runs hopen hcertified hhead hdata hdecode hparse hid hwriter (fun heq => ?_) hruns
    exact hother (hdata₀ ▸ congrArg some (hcollision _ hdata₀ heq))

/-! ### A run -/

/-- A runtime whose digest of a text is the text. -/
def retryRuntime : Runtime := { sampleRuntime with sha256 := fun data => String.ofList ((decode data).getD []) }

/-- A backend over the objects of the sample, which shows the commit that it appends. -/
def retryBackend (op : Op) (repo : Repo) : Except Exc op.Reply × Repo :=
  match op with
  | .readCommit commitSha =>
    if commitSha = sampleCandidate then (.ok (some ⟨[sampleRoot], "t1", [samplePath]⟩), repo) else (.ok none, repo)
  | .updateRefNonForce branch candidateSha =>
    if branch = "bus/yin-v2" ∧ candidateSha = sampleCandidate ∧ repo.head = sampleRoot then
      (.ok true, ⟨sampleObjects, sampleCandidate, known_sampleCandidate⟩)
    else (.error (.other ""), repo)
  | op => sampleBackend op repo

theorem backend_retryBackend (op : Op) (repo : Repo) (h : repo.toObjects = sampleObjects) :
    Backend sampleSite op repo (retryBackend op repo).1 (retryBackend op repo).2 ∧
      (retryBackend op repo).2.toObjects = sampleObjects := by
  have hrefl := Objects.Extends.refl repo.toObjects
  cases op with
  | readCommit commitSha =>
    by_cases hcommit : commitSha = sampleCandidate
    · simp only [retryBackend, if_pos hcommit]
      exact ⟨⟨hrefl, rfl, trivial⟩, h⟩
    · simp only [retryBackend, if_neg hcommit]
      exact ⟨⟨hrefl, rfl, trivial⟩, h⟩
  | updateRefNonForce branch candidateSha =>
    by_cases hargs : branch = "bus/yin-v2" ∧ candidateSha = sampleCandidate ∧ repo.head = sampleRoot
    · simp only [retryBackend, if_pos hargs]
      obtain ⟨rfl, rfl, hhead⟩ := hargs
      have hne : sampleCandidate ≠ sampleRoot := by decide
      refine ⟨⟨by rw [h]; exact .refl _, .inl ⟨rfl, ?_, rfl⟩⟩, trivial⟩
      rw [h, hhead]
      exact CommitGraph.Parent.ancestor ⟨[sampleRoot], by simp [sampleObjects, hne], by simp⟩
    · simp only [retryBackend, if_neg hargs]
      exact ⟨⟨hrefl, .inl rfl⟩, h⟩
  | _ => exact backend_sampleBackend _ repo h

/-- The append against that backend. -/
def retryRun : List (Answer Sources Exc) × Except Exc SafeAppendReceipt × Repo :=
  (appendBusMessageV1 retryRuntime "yin" sampleRoot sampleArguments.message).play retryBackend sampleRepo

def appendedReceipt : SafeAppendReceipt where
  result := "APPENDED"
  operationKey := "radar-safe-append-v1:yin:yin-1:" ++ String.ofList sampleText
  identity := "yin"
  derivedWriter := "yin"
  assertedWriter := "yin"
  laneRef := "bus/yin-v2"
  controlCommitSha := "c0"
  topologyBlobSha := "t0"
  expectedLaneHead := sampleRoot
  prewriteObservedHead := sampleRoot
  commitSha := sampleCandidate
  commitParentSha := sampleRoot
  postwriteObservedHead := sampleCandidate
  treeSha := "t1"
  path := samplePath
  messageId := "yin-1"
  prevMessageId := none
  messageBlobSha := "blob"
  messageSha256 := String.ofList sampleText
  readbackVerified := true
  currentLaneAfterReadback := true

theorem retryRun_appended : retryRun.2.1 = .ok appendedReceipt := by decide +kernel

/-- One of two appenders has appended the message. -/
theorem exists_appended : ∃ (w' : World Bool) (es : List (PoolEvent Bool Arguments)),
    Run (AppendStep retryRuntime sampleSite) sampleWorld es w' ∧ w'.program true = .done (.ok appendedReceipt) ∧
      w'.data true = sampleArguments := by
  have hrun : Runs (Backend sampleSite) (appendBusMessageV1 retryRuntime "yin" sampleRoot sampleArguments.message)
      sampleRepo retryRun.1 retryRun.2.1 retryRun.2.2 := by
    unfold retryRun
    exact runs_play (J := fun repo => repo.toObjects = sampleObjects) backend_retryBackend _ _ rfl
  rw [retryRun_appended] at hrun
  have hpool := (Run.single (show AppendStep retryRuntime sampleSite sampleWorld (.start true sampleArguments) _ from
    .start true sampleArguments)).trans
    (hrun.pool (p := { sampleWorld with
        data := Function.update sampleWorld.data true sampleArguments
        program := Function.update sampleWorld.program true
          (appendBusMessageV1 retryRuntime "yin" sampleRoot sampleArguments.message) })
      (i := true) rfl (by simp))
  exact ⟨_, _, hpool, by simp, by simp⟩

/-- The message under its id again, from the writer and from another. -/
def otherText (writer : String) : List Char := ("message_id: yin-1\nwriter: " ++ writer ++ "\n\nother\n").toList

theorem encode_ne {text text' : List Char} (h : text ≠ text') : encode text ≠ encode text' := fun heq => by
  have hdecode := congrArg decode heq
  rw [decode_encode, decode_encode] at hdecode
  exact h (Option.some.inj hdecode)

theorem sampleArguments_data : sampleArguments.message.data = some (encode sampleText) := by decide +kernel

/-- A retry of the message is answered with its commit, and another message under its id is refused. -/
theorem retry_idempotent_sample : ∃ w' : World Bool, w'.program true = .done (.ok appendedReceipt) ∧
    (∀ answers result repo, Runs (Faithful retryRuntime sampleSite appendedReceipt.laneBinding)
      (appendBusMessageV1 retryRuntime "yin" sampleCandidate (.bytes (encode sampleText))) w'.state answers result repo →
      (∀ answer ∈ answers, ¬ IsWrite answer.op) ∧ ∃ again, result = .ok again ∧ again.result = "ALREADY_COMMITTED" ∧
        again.commitSha = sampleCandidate) ∧
    ∀ answers result repo, Runs (Faithful retryRuntime sampleSite appendedReceipt.laneBinding)
      (appendBusMessageV1 retryRuntime "yin" sampleCandidate (.bytes (encode (otherText "yin")))) w'.state answers result repo →
      (∀ answer ∈ answers, ¬ IsWrite answer.op) ∧ result = .error (preflight "MESSAGE_ID_COLLISION") := by
  obtain ⟨w', es, hrun, hdone, hdata⟩ := exists_appended
  have hretry := fun message => (retry_idempotent retryRuntime sampleSite sampleWorld w' w' [] es [] true appendedReceipt
    (fun _ => ⟨_, rfl⟩) ⟨.root, linked_nil⟩ hrun hdone rfl .nil sampleCandidate (by decide) message).2
  refine ⟨w', hdone, fun answers result repo hruns => ?_, fun answers result repo hruns => ?_⟩
  · obtain ⟨hreads, again, hresult, hagain, -, hcommit, -⟩ := (hretry _ answers result repo hruns).1 (by rw [hdata, sampleArguments_data]; rfl)
    exact ⟨hreads, again, hresult, hagain, hcommit⟩
  · refine (hretry _ answers result repo hruns).2 _ (otherText "yin") ⟨"yin-1", "yin", none⟩ rfl (decode_encode _) (by decide +kernel) rfl rfl
      ?_ ?_
    · rw [hdata, sampleArguments_data]
      exact fun heq => encode_ne (by decide) (Option.some.inj heq)
    · intro data' hdata' heq
      rw [hdata, sampleArguments_data] at hdata'
      obtain rfl := Option.some.inj hdata'
      simp only [retryRuntime, decode_encode, Option.getD_some] at heq
      exact congrArg encode (String.ofList_inj.mp heq)

/-- **A later message under the id of an appended one, from another writer, is refused for its
writer, and not as a collision.** -/
theorem writer_refused_first : ∃ (w' : World Bool) (es : List (PoolEvent Bool Arguments)) (parsed : ParsedMessage),
    (∀ i, ∃ exc, sampleWorld.program i = .done (.error exc)) ∧ IsLane sampleSite sampleWorld.state [] ∧
    Run (AppendStep retryRuntime sampleSite) sampleWorld es w' ∧ w'.program true = .done (.ok appendedReceipt) ∧
    parseMessage (otherText "yang") = .ok parsed ∧ parsed.messageId = appendedReceipt.messageId ∧
    some (encode (otherText "yang")) ≠ (w'.data true).message.data ∧
    ∃ answers repo, Runs (Faithful retryRuntime sampleSite appendedReceipt.laneBinding)
      (appendBusMessageV1 retryRuntime "yin" sampleCandidate (.bytes (encode (otherText "yang")))) w'.state answers
      (.error (preflight "WRITER_MISMATCH")) repo := by
  obtain ⟨w', es, hrun, hdone, hdata⟩ := exists_appended
  have hopen : openEnvelope retryRuntime "yin" sampleCandidate (.bytes (encode (otherText "yang"))) =
      .ok ⟨"yin", sampleCandidate, encode (otherText "yang"), ⟨"yin-1", "yang", none⟩⟩ := by decide +kernel
  have hrefused : requireBinding retryRuntime ⟨"radar", "c1", "t0", fun _ => some appendedReceipt.laneBinding⟩
      ⟨"yin", sampleCandidate, encode (otherText "yang"), ⟨"yin-1", "yang", none⟩⟩ = .error (preflight "WRITER_MISMATCH") := by
    decide +kernel
  refine ⟨w', es, ⟨"yin-1", "yang", none⟩, fun _ => ⟨_, rfl⟩, ⟨.root, linked_nil⟩, hrun, hdone, by decide +kernel, rfl, ?_,
    [⟨.readControl, .ok ⟨"radar", "c1", "t0", fun _ => some appendedReceipt.laneBinding⟩⟩], w'.state, ?_⟩
  · rw [hdata, sampleArguments_data]
    exact fun heq => encode_ne (by decide) (Option.some.inj heq)
  · rw [appendBusMessageV1, hopen]
    refine .call (t := w'.state) ⟨Grows.refl _, _, rfl, rfl⟩ ?_
    change Runs _ (lift (requireBinding _ _ _) >>= _) _ _ _ _
    rw [hrefused]
    exact .done

end CcbCore.Append
