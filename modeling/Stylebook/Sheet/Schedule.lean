import Stylebook.Sheet.Visit

/-! Loading side by side. Every chain is followed by a branch of its own. A branch loads its sheet, begins a
    branch for each import that goes on from there, and waits until all of them are over. The first of them
    that fails makes it stop the others; a branch that was told to stop passes that on and still waits. In
    the end a branch fails with the first load error of those it waited for, whatever else went wrong
    there.

    The branches take turns: what comes up is put at the end of a queue and worked off from the front. So it is
    settled which of several failures is the answer, and it need not be that of the shortest chain, because
    branches have to be over before their failures count. -/

namespace Stylebook
namespace Sheet

open Loading (Failure LoadError)

/-- Either one failure, or several of which none is a load error. -/
inductive GraphError
  | failure (f : Failure)
  | several
  deriving DecidableEq, Repr

def GraphError.message : GraphError → Text
  | .failure f => f.message
  | .several => "Several style-sheets could not be loaded.".text

/-- The load error that a failure is, or the first one it holds. -/
def GraphError.loadError? : GraphError → Option LoadError
  | .failure (.load e) => some e
  | .failure (.group es) => es.head?
  | _ => none

/-- What failures that came up side by side amount to. -/
def GraphError.ofList (errors : List GraphError) : GraphError :=
  match errors.findSome? loadError? with
  | some e => .failure (.load e)
  | none => .several

/-! ### Branches -/

inductive Ending
  | loaded
  | failed (e : GraphError)
  | stopped
  deriving DecidableEq, Repr

/-- A branch that waits may have its next turn coming, and it may have been told to stop then. -/
inductive Phase
  | ready
  | waiting (turn : Option Bool)
  | ended (e : Ending)
  deriving DecidableEq, Repr

/-- A branch with the one that began it, the branches it still waits for, and the failures of those that are
    over. `stopping` tells that it has made its branches stop, `told` that it was itself told to stop before. -/
structure Branch where
  chain : Chain
  parent : Option Nat
  phase : Phase := .ready
  left : List Nat := []
  errors : List GraphError := []
  stopping : Bool := false
  told : Bool := false
  deriving DecidableEq, Repr

/-- A branch that waits has its next turn as one that was told to stop. -/
def Branch.halted (b : Branch) : Branch :=
  match b.phase with
  | .waiting _ => { b with phase := .waiting (some true) }
  | _ => b

/-- A branch that waits for the branches `ids`. -/
def Branch.awaiting (b : Branch) (ids : List Nat) : Branch := { b with phase := .waiting none, left := ids }

/-- A branch at a turn that may tell it to stop. -/
def Branch.heard (b : Branch) (stop : Bool) : Branch :=
  if stop && !b.stopping then { b with stopping := true, told := true } else b

/-- The branches that such a turn makes it tell to stop in turn. -/
def Branch.toldOn (b : Branch) (stop : Bool) : List Nat := if stop && !b.stopping then b.left else []

/-- A branch when the branch `i`, for which it waited, is over. -/
def Branch.without (b : Branch) (i : Nat) (e : Ending) : Branch :=
  let b := { b with left := b.left.filter (· != i) }
  match e with
  | .failed e => { b with errors := b.errors ++ [e], stopping := true }
  | _ => b

/-- How a branch ends that waits for nothing any more. -/
def Branch.ending (b : Branch) : Ending :=
  if b.errors.isEmpty then (if b.told then .stopped else .loaded) else .failed (.ofList b.errors)

def Branch.failure? (b : Branch) : Option GraphError :=
  match b.phase with
  | .ended (.failed e) => some e
  | _ => none

/-- A branch gets its turn, or a branch is closed, that is over, and the one that waits for it is to know. -/
inductive Event
  | turn (i : Nat)
  | closed (i : Nat)
  deriving DecidableEq, Repr

/-- The branches by number, and what is to be worked off. -/
structure Schedule where
  branches : List Branch
  queue : List Event
  deriving Repr

namespace Schedule

/-- Keeps what has become of the branch `i`. -/
def put (s : Schedule) (i : Nat) (b : Branch) : Schedule := { s with branches := s.branches.set i b }

def post (s : Schedule) (events : List Event) : Schedule := { s with queue := s.queue ++ events }

/-- Whether a branch waits without a turn coming. -/
def isIdle (s : Schedule) (i : Nat) : Bool := (s.branches[i]?.map (·.phase)) == some (.waiting none)

/-- Tells branches to stop. Those that wait get a turn for it. -/
def halt (s : Schedule) (ids : List Nat) : Schedule where
  branches := s.branches.mapIdx fun i b => if ids.contains i then b.halted else b
  queue := s.queue ++ (ids.filter s.isIdle).map .turn

def finish (s : Schedule) (i : Nat) (b : Branch) (e : Ending) : Schedule :=
  (s.put i { b with phase := .ended e }).post [.closed i]

/-- The branch `i` waits on. Where it has nothing left to wait for it gets a turn, unless one is coming
    already. -/
def wake (s : Schedule) (i : Nat) (b : Branch) : Schedule :=
  if b.left.isEmpty && b.phase == .waiting none then
    (s.put i { b with phase := .waiting (some false) }).post [.turn i]
  else s.put i b

/-- Begins branches for the chains, for which the branch `i` waits. -/
def fork (s : Schedule) (i : Nat) (b : Branch) (chains : List Chain) : Schedule :=
  let ids := List.range' s.branches.length chains.length
  let s := s.put i (b.awaiting ids)
  { branches := s.branches ++ chains.map fun c => { chain := c, parent := some i }
    queue := s.queue ++ ids.map .turn }

/-- The first turn of a branch. -/
def begin (r : Reader) (s : Schedule) (i : Nat) (b : Branch) : Schedule :=
  let visit := r.visit b.chain
  match visit.failure? with
  | some f => s.finish i b (.failed (.failure f))
  | none => if visit.next.isEmpty then s.finish i b .loaded else s.fork i b visit.next

/-- The end of a turn: the branch `i` waits on, or is over where nothing is left to wait for. -/
def pause (s : Schedule) (i : Nat) (b : Branch) : Schedule :=
  if b.left.isEmpty then s.finish i b b.ending else s.put i (b.awaiting b.left)

/-- Any later turn of a branch. -/
def resume (s : Schedule) (i : Nat) (b : Branch) (stop : Bool) : Schedule :=
  (s.halt (b.toldOn stop)).pause i (b.heard stop)

/-- The branch `i`, for which the branch `p` waits, is over. -/
def close (s : Schedule) (i : Nat) (e : Ending) (p : Nat) (b : Branch) : Schedule :=
  let now := b.without i e
  if now.stopping && !b.stopping then (s.put p now).halt (now.left ++ [p]) else s.wake p now

/-- Works off what is first in the queue. -/
def step (r : Reader) (s : Schedule) : Schedule :=
  match s.queue with
  | [] => s
  | .turn i :: rest =>
    let s := { s with queue := rest }
    match s.branches[i]? with
    | none => s
    | some b =>
      match b.phase with
      | .ready => s.begin r i b
      | .waiting (some stop) => s.resume i b stop
      | _ => s
  | .closed i :: rest =>
    let s := { s with queue := rest }
    match s.branches[i]? with
    | none => s
    | some b =>
      match b.phase, b.parent with
      | .ended e, some p =>
        match s.branches[p]? with
        | some parent => s.close i e p parent
        | none => s
      | _, _ => s

def run (r : Reader) : Nat → Schedule → Schedule
  | 0, s => s
  | n + 1, s => run r n (s.step r)

def start (root : Text) : Schedule := ⟨[{ chain := ⟨root, []⟩, parent := none }], [.turn 0]⟩

/-- The failure of the first branch. -/
def fault? (s : Schedule) : Option GraphError := s.branches[0]?.bind Branch.failure?

end Schedule
end Sheet
end Stylebook
