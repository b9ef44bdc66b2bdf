import CcbCore.Append.Operation
import CcbCore.Git.Objects

/-!
# The repository an append writes to

A git repository as the backend of `append_bus_message_v1` shows it: objects under
names that keep what they name (`Objects.Extends`), and the ref of one lane. `Backend`
is the environment of the appends to the lane: the reads answer for the repository at
the moment they are made, the writes add objects, the ref update moves the ref exactly
when that is a fast-forward, and any call may raise, an update also after it moved the
ref. `IsLane` is what the lane should be: one line of commits from `root`, each adding
one message file to its parent's tree, under an id the lane did not have, and naming
the message before it.
-/

namespace CcbCore.Append

open CcbCore.Python CcbCore.Git

/-- `read_file_at_commit`. -/
def readFile (objects : Objects String) (c path : String) : Option FileReadback :=
  (objects.fileAt c path).map fun file => ⟨file.1, file.2⟩

/-- A repository, and the head of the lane's branch. -/
structure Repo extends Objects String where
  head : String
  head_known : graph.Known head

/-! ### The lane -/

/-- A commit of the lane, and the message it adds. -/
structure Entry where
  commitSha : String
  messageId : String
  prevMessageId : Option String
  content : Bytes

/-- The path of the entry's message. -/
def Entry.path (entry : Entry) : String := "messages/" ++ entry.messageId ++ ".md"

/-- The entry that a commit of the envelope's message is. -/
def Envelope.entry (envelope : Envelope) (candidateSha : String) : Entry :=
  ⟨candidateSha, envelope.parsed.messageId, envelope.parsed.prevMessageId, envelope.messageBytes⟩

/-- What a file says of itself. -/
def announced (content : Bytes) : Option ParsedMessage := (decode content).bind fun text => (parseMessage text).toOption

/-- The entry's commit is a child of `parent`, and adds the entry's file to its tree. -/
structure Adds (objects : Objects String) (parent : String) (entry : Entry) : Prop where
  parents : objects.graph.parents entry.commitSha = some [parent]
  tree : ∃ files blob, objects.TreeAt parent files ∧ files.lookup entry.path = none ∧
    objects.TreeAt entry.commitSha (files.insert entry.path blob) ∧
    objects.blobs blob = some entry.content
  announced : ∃ writer, announced entry.content = some ⟨entry.messageId, writer, entry.prevMessageId⟩

/-- A line of commits from `root` to a head, each adding a message. -/
inductive Lane (objects : Objects String) (root : String) : String → List Entry → Prop where
  | root : Lane objects root root []
  | append {head : String} {entries : List Entry} {entry : Entry} :
      Lane objects root head entries → Adds objects head entry →
      Lane objects root entry.commitSha (entries ++ [entry])

/-- The message ids of a lane that had those in `before` at its root. -/
def messageIds (before : List String) (entries : List Entry) : List String :=
  before ++ entries.map Entry.messageId

/-- Every entry has an id that the lane did not have, and names the message before it. -/
def Linked (before : List String) (entries : List Entry) : Prop :=
  ∀ earlier entry later, entries = earlier ++ entry :: later →
    entry.messageId ∉ messageIds before earlier ∧ entry.prevMessageId = (messageIds before earlier).getLast?

/-- The lane of an identity: its branch, and what was on it when it is first looked at. -/
structure Site where
  identity : String
  branch : String
  root : String
  before : List String

/-- The repository's lane has these entries, and is as a lane should be. -/
def IsLane (site : Site) (repo : Repo) (entries : List Entry) : Prop :=
  Lane repo.toObjects site.root repo.head entries ∧ Linked site.before entries

/-! ### The backend -/

/-- The history is exactly that of a lane with these message ids. -/
structure Exact (history : IdentityHistory) (ids : List String) : Prop where
  mem_iff : ∀ id, id ∈ history.messages.map CommittedMessage.messageId ↔ id ∈ ids
  tips : history.tipMessageIds = ids.getLast?.toList

/-- What a call that returns says of the repository after it. -/
def Replies (site : Site) (repo : Repo) : (op : Op) → op.Reply → Prop
  | .readControl, control => ∀ binding, control.lanes site.identity = some binding → binding.branch = site.branch
  | .readIdentity identity, history => identity = site.identity →
    ∃ entries, Lane repo.toObjects site.root repo.head entries ∧ Exact history (messageIds site.before entries)
  | .readBranchHead branch, found => branch = site.branch → found = some repo.head
  | .readFileAtCommit commitSha path, file => file = readFile repo.toObjects commitSha path
  | .createBlob content, blobSha => repo.blobs blobSha = some content
  | .createTree baseCommitSha path blobSha, treeSha => (repo.blobs blobSha).isSome ∧
    ∃ files, repo.TreeAt baseCommitSha files ∧ repo.trees treeSha = some (files.insert path blobSha)
  | .createCommit _ treeSha parentSha, commitSha =>
    repo.graph.parents commitSha = some [parentSha] ∧ repo.treeOf commitSha = treeSha
  | _, _ => True

/-- Whether the call moved the ref, after the repository had the first state and
before it has the second. -/
def Moved (site : Site) (repo repo' : Repo) : Op → Prop
  | .updateRefNonForce branch candidateSha =>
    branch = site.branch ∧ repo.graph.Ancestor repo.head candidateSha ∧ repo'.head = candidateSha
  | _ => False

/-- The backend and the sources of the appends to a lane. A ref update that returns
`True` moved the ref, one that returns `False` could not, and one that raises may have. -/
def Backend (site : Site) : Environment Sources Exc Repo := fun op repo reply repo' =>
  repo.toObjects.Extends repo'.toObjects ∧
    match op, reply with
    | .updateRefNonForce branch candidateSha, .ok true =>
      Moved site repo repo' (.updateRefNonForce branch candidateSha) ∨ branch ≠ site.branch ∧ repo'.head = repo.head
    | .updateRefNonForce branch candidateSha, .ok false =>
      repo'.head = repo.head ∧ (branch = site.branch → ¬ repo.graph.Ancestor repo.head candidateSha)
    | .updateRefNonForce branch candidateSha, .error _ =>
      repo'.head = repo.head ∨ Moved site repo repo' (.updateRefNonForce branch candidateSha)
    | _, .error _ => repo'.head = repo.head
    | op, .ok value => repo'.head = repo.head ∧ Replies site repo' op value

end CcbCore.Append
