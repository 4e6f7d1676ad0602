import BuildHooks.Push.Basic
import BuildHooks.Text.Blank
import BuildHooks.Text.Lowercase

/-!
Jobs and what they watch. A job watches one repository, whose address may be spelled in several ways,
and all of its branches or some of them.
-/

namespace BuildHooks

/-- How a job reacts to pushed code: it looks for changes and builds if there are any, or it builds. -/
inductive Job.Trigger where
  | poll
  | build
deriving DecidableEq, Repr

structure Job where
  name : String
  repositoryUrl : String
  /-- The branches to watch, with or without `refs/heads/`; all if there is none or a star. -/
  branches : List String
  trigger : Job.Trigger
deriving DecidableEq, Repr

inductive Outcome.Kind where
  | pollingScheduled
  | buildScheduled
deriving DecidableEq, Repr

/-- One job that reacted to one event. -/
structure Outcome where
  job : String
  kind : Outcome.Kind
deriving DecidableEq, Repr

/-- The outcome as it is told to the caller. -/
def Outcome.message (o : Outcome) : String :=
  match o.kind with
  | .pollingScheduled => s!"Scheduled polling of {o.job}"
  | .buildScheduled => s!"Scheduled {o.job}"

namespace Job

/-- The ending that the address of a repository may have or not. -/
def repositoryEnding : List Char :=
  ".git".toList

/-- A text without `ending` at its end. -/
def dropEnding (ending cs : List Char) : List Char :=
  match Text.dropLead? ending.reverse cs.reverse with
  | some rest => rest.reverse
  | none => cs

/-- What two spellings of one repository's address have in common: blank ends and slashes at the end
are taken off, ASCII letters become small, and one `.git` is taken off. -/
def repositoryKey (url : String) : List Char :=
  let trimmed := Text.dropBothWhile Text.isBlank url.toList
  let bare := Text.dropEndWhile (· = '/') trimmed
  dropEnding repositoryEnding (bare.map Char.toLower)

def watchesRepository (job : Job) (repoUri : String) : Bool :=
  repositoryKey job.repositoryUrl == repositoryKey repoUri

/-- An event without a branch concerns every job of the repository. -/
def watchesBranch (job : Job) : Option String → Bool
  | none => true
  | some branch =>
    job.branches.isEmpty
      || job.branches.any fun b => b == "*" || branchName b == branchName branch

/-- The job watches the repository and the branch of a push. -/
def concerns (job : Job) (push : Push) : Bool :=
  job.watchesRepository push.repoUri && job.watchesBranch push.targetBranch

/-- What pushed code does to a job that watches it. -/
def outcome (job : Job) : Outcome :=
  match job.trigger with
  | .poll => ⟨job.name, .pollingScheduled⟩
  | .build => ⟨job.name, .buildScheduled⟩

/-- What a pull request does to a job that watches it. -/
def buildOutcome (job : Job) : Outcome :=
  ⟨job.name, .buildScheduled⟩

end Job

end BuildHooks
