import Mathlib.Logic.Function.Basic
import Mathlib.Logic.Relation
import AlarmPanel.Proofs.Circuit.Line
import AlarmPanel.Proofs.Client.Outlook

/-!
# The circuit of the client

Who dials, and what is let known of it, depends on a part of a client only: the link, the connect lock with
the strands that see to the link, the receive task, and the record of effects. `Client.circuit` is that part.

A strand that sees to the link makes one of the steps of `Circuit.Connect`: a dial that connects is one of them, and
to make it known is the next one, so that anything may happen in between that does not take the lock. All else
that tasks do to the circuit are the few things of `Circuit.Aside`, one after the other, and when time passes only
one thing changes. `Client.step_of_perform?` says that there is nothing else, so an invariant of the circuit has to
be shown for these steps alone.
-/

namespace AlarmPanel

open Relation

/-! ## Where tasks stand -/

/-- What the receive task is about. -/
inductive Receiver
  /-- It sees to the link. -/
  | connecting
  /-- It is in a read that began on the link with this number. -/
  | reading (link : Nat)
  | over
  deriving DecidableEq, Repr

/-- Whether an effect is about the link: a dial, the end of one, or a notice that the link is up or lost. -/
def Effect.aboutLink : Effect → Bool
  | .dialing _ | .dialed _ | .notified .connected | .notified .disconnected => true
  | _ => false

theorem Effect.aboutLink_of_reports {effect : Effect} (h : effect.reports = true) :
    effect.aboutLink = false := by
  unfold Effect.reports at h
  split at h
  next => rfl
  next => rfl
  next => cases h

/-- Where the branches of an update stand that need the link to be up. -/
def Branches.connects (branches : Branches) (branch : Nat) : Option ConnectPlace :=
  branches[branch]?.join.bind SendPlace.connectPlace?

/-- The only branch of a task stands here, or nowhere. -/
def soleBranch (place : Option ConnectPlace) : Nat → Option ConnectPlace :=
  Function.update (fun _ => none) 0 place

/-- The place where a strand goes on after a step, if it does. -/
def Next.place? {Place Result : Type} : Next Place Result → Option Place
  | .place goesOn => some goesOn
  | _ => none

theorem soleBranch_update {branch : Nat} (h : branch = 0) (place next : Option ConnectPlace) :
    soleBranch next = Function.update (soleBranch place) branch next := by
  rw [h, soleBranch, soleBranch, Function.update_idem]

theorem soleBranch_none : soleBranch none = fun _ => none := Function.update_eq_self 0 _

theorem soleBranch_cases (place : Option ConnectPlace) (branch : Nat) :
    soleBranch place branch = none ∨ soleBranch place branch = place := by
  by_cases h : branch = 0 <;> simp [soleBranch, h]

theorem Branches.connects_set (branches : Branches) {branch : Nat} {place : Option SendPlace}
    (hbranch : branch < branches.length) :
    (Branches.connects (branches.set branch place)) =
      Function.update branches.connects branch (place.bind SendPlace.connectPlace?) := by
  funext other
  by_cases hother : other = branch
  · simp [Branches.connects, hother, hbranch]
  · simp [Branches.connects, Function.update_of_ne hother, List.getElem?_set_ne (Ne.symm hother)]

/-- A branch of an update that sees to the link is a branch that has not ended. -/
theorem Branches.getElem?_of_connects {branches : Branches} {branch : Nat} {place : ConnectPlace}
    (h : branches.connects branch = some place) :
    branches[branch]? = some (some (.connecting place)) ∧ branch < branches.length := by
  obtain ⟨send, hjoin, hsend⟩ := Option.bind_eq_some_iff.mp h
  have hbranch : branches[branch]? = some (some send) := Option.join_eq_some_iff.mp hjoin
  cases send with
  | connecting here =>
    cases hsend
    exact ⟨hbranch, (List.getElem?_eq_some_iff.mp hbranch).1⟩
  | asking | queued | writing => cases hsend

theorem soleBranch_eq_some {place : Option ConnectPlace} {here : ConnectPlace} {branch : Nat}
    (h : soleBranch place branch = some here) : branch = 0 ∧ place = some here := by
  by_cases hbranch : branch = 0
  · subst hbranch
    exact ⟨rfl, by simpa [soleBranch] using h⟩
  · simp [soleBranch, hbranch] at h

namespace Task

/-- Where the branches of the task stand that need the link to be up. -/
def connectAt : Task → Nat → Option ConnectPlace
  | .receive (.connecting place) => soleBranch (some place)
  | .call _ (.connecting place) => soleBranch (some place)
  | .call _ (.sending _ place) => soleBranch place.connectPlace?
  | .call _ (.requesting _ _ _ _ place) => soleBranch place.connectPlace?
  | .call _ (.updating branches) => branches.connects
  | .refresh (.updating branches) => branches.connects
  | _ => fun _ => none

/-- What the task is about if it is the receive task. -/
def receiver? : Task → Option Receiver
  | .receive (.reading number) => some (.reading number)
  | .receive _ => some .connecting
  | .over .receive _ => some .over
  | _ => none

/-- A task that is over is the receive task if it was that before. -/
theorem receiver?_over (task : Task) (ending : Ending) :
    (Task.over task.role ending).receiver? = task.receiver?.map fun _ => .over := by
  cases task with
  | receive place => cases place <;> rfl
  | refresh | call => rfl
  | _ role => cases role <;> rfl

end Task

/-- The part of a client that the dials depend on, and what is let known of them. -/
structure Circuit where
  up : Bool
  number : Nat
  /-- Whether the panel has been silent for too long. -/
  silent : Bool
  lock : Lock
  started : Bool
  /-- Where the strands stand that need the link to be up. -/
  places : Strand → Option ConnectPlace
  receivers : Nat → Option Receiver
  effects : List Effect

namespace Circuit

/-! ## Steps of the circuit -/

/-- Puts a strand at a place, or nowhere. -/
def put (strand : Strand) (place : Option ConnectPlace) (k : Circuit) : Circuit :=
  { k with places := Function.update k.places strand place }

@[simp] theorem places_put_self (strand : Strand) (place : Option ConnectPlace) (k : Circuit) :
    (k.put strand place).places strand = place := Function.update_self _ _ _

theorem places_put_of_ne {strand other : Strand} (h : other ≠ strand) (place : Option ConnectPlace) (k : Circuit) :
    (k.put strand place).places other = k.places other := Function.update_of_ne h _ _

/-- Puts all branches of a task at their places. -/
def seat (task : Nat) (places : Nat → Option ConnectPlace) (k : Circuit) : Circuit :=
  { k with places := fun strand => if strand.task = task then places strand.branch else k.places strand }

def setReceiver (task : Nat) (receiver : Option Receiver) (k : Circuit) : Circuit :=
  { k with receivers := Function.update k.receivers task receiver }

def record (effects : List Effect) (k : Circuit) : Circuit := { k with effects := k.effects ++ effects }

@[simp] theorem record_nil (k : Circuit) : k.record [] = k := by simp [record]

@[simp] theorem record_record (first second : List Effect) (k : Circuit) :
    (k.record first).record second = k.record (first ++ second) := by simp [record]

/-- A task gives up what its strands hold and ask for; the receive task does so only at its end. -/
def giveUp (task : Nat) (k : Circuit) : Circuit :=
  ({ k with lock := k.lock.withdraw task }.seat task fun _ => none).setReceiver task
    ((k.receivers task).map fun _ => .over)

/-- The strand is in a dial, or about to begin one; `begun` is what is recorded of the beginning. -/
def Dials (strand : Strand) (begun : List Effect) (k : Circuit) : Prop :=
  k.places strand = some .dialing ∧ begun = [] ∨
    k.places strand = some .checking ∧ k.up = false ∧ begun = [.dialing strand]

/-- A step of a strand that sees to the link. -/
inductive Connect (strand : Strand) (k : Circuit) : Circuit → Prop
  | ask (hplace : k.places strand = some .asking) :
      Connect strand k ({ k with lock := k.lock.ask strand }.put strand (some .queued))
  | enter (hplace : k.places strand = some .queued) (hholds : k.lock.holder = some strand)
      (hsilent : k.silent = false) : Connect strand k (k.put strand (some .checking))
  | hangUp (hplace : k.places strand = some .queued) (hholds : k.lock.holder = some strand)
      (hsilent : k.silent = true) :
      Connect strand k (({ k with up := false }.record [.closedLink]).put strand (some .checking))
  | dial (hplace : k.places strand = some .checking) (hdown : k.up = false) :
      Connect strand k ((k.record [.dialing strand]).put strand (some .dialing))
  | fail {begun : List Effect} {outcome : DialOutcome} (wake : Nat) (hdials : k.Dials strand begun)
      (houtcome : outcome ≠ .connected) :
      Connect strand k ((k.record (begun ++ [Effect.dialed outcome])).put strand (some (.pausing wake)))
  | succeed {begun : List Effect} (hdials : k.Dials strand begun) :
      Connect strand k
        (({ k with up := true, number := k.number + 1 }.record (begun ++ [Effect.dialed .connected])).put strand
          (some .announcing))
  /-- The link may be down again by then. -/
  | announce (hplace : k.places strand = some .announcing) :
      Connect strand k
        (({ k with silent := false, lock := k.lock.release }.record [.notified .connected]).put strand none)
  | wake {wake : Nat} (hplace : k.places strand = some (.pausing wake)) :
      Connect strand k (k.put strand (some .checking))
  | leave {place : ConnectPlace} (hplace : k.places strand = some place) (hasks : place ≠ .asking)
      (hannounces : place ≠ .announcing)
      (hqueued : place = .queued → k.lock.holder = some strand ∧ k.silent = false) :
      Connect strand k ({ k with lock := k.lock.release }.put strand none)

/-- What else tasks and the link do to the circuit. -/
inductive Aside (k : Circuit) : Circuit → Prop
  | fall : Aside k { k with up := false }
  /-- The panel is heard of. -/
  | hear : Aside k { k with silent := false }
  | record {effects : List Effect} (heffects : ∀ effect ∈ effects, effect.aboutLink = false) :
      Aside k (k.record effects)
  | begin {task : Nat} {places : Nat → Option ConnectPlace}
      (hnowhere : ∀ strand, strand.task = task → k.places strand = none)
      (hplaces : ∀ branch, places branch = none ∨ places branch = some .asking) :
      Aside k (k.seat task places)
  | giveUp (task : Nat) : Aside k (k.giveUp task)
  /-- The receive task is launched. -/
  | launch {task : Nat} (hstarted : k.started = false) :
      Aside k ({ k with started := true }.setReceiver task (some .connecting))
  /-- The receive task begins to read from a link that is up, or that has been made known just now, even if it
  has gone down again. -/
  | read {task : Nat} (hreceiver : k.receivers task = some .connecting)
      (hquiet : ∀ strand, k.places strand ≠ some .announcing)
      (hfound : k.up = true ∨ k.effects.getLast? = some (.notified .connected)) :
      Aside k (k.setReceiver task (some (.reading k.number)))
  /-- The read comes to its end with the link that it began on. -/
  | lose {task number : Nat} (hreceiver : k.receivers task = some (.reading number))
      (hgone : k.up = true → k.number ≠ number) :
      Aside k ((k.record [.notified .disconnected]).setReceiver task (some .connecting))

/-- What a strand does first in a step: a step of connecting if it sees to the link. -/
inductive Moves (strand : Strand) (k : Circuit) : Circuit → Prop
  | connect {l : Circuit} (hconnect : k.Connect strand l) : Moves strand k l
  | aside {l : Circuit} (hnowhere : k.places strand = none) (hasides : ReflTransGen Aside k l) :
      Moves strand k l

/-- No other strand of the task sees to the link. -/
def Sole (strand : Strand) (k : Circuit) : Prop :=
  ∀ other : Strand, other.task = strand.task → other ≠ strand → k.places other = none

/-- A step of a strand. When it is through with the link, the receive task may begin to read, or find that the
link which it has just made known is gone again, and any task may end; but a task with several strands that see
to the link does not end when one of them has made it known. -/
inductive Goes (strand : Strand) (k : Circuit) : Circuit → Prop
  | connect {l : Circuit} (hconnect : k.Connect strand l) : Goes strand k l
  | read {l : Circuit} (hconnect : k.Connect strand l) (hthrough : l.places strand = none)
      (hreceiver : l.receivers strand.task = some .connecting) (hup : l.up = true) :
      Goes strand k (l.setReceiver strand.task (some (.reading l.number)))
  | miss {l : Circuit} (hplace : k.places strand = some .announcing) (hconnect : k.Connect strand l)
      (hreceiver : l.receivers strand.task = some .connecting) (hdown : l.up = false) :
      Goes strand k (l.record [.notified .disconnected])
  | finish {l : Circuit} (hconnect : k.Connect strand l) (hthrough : l.places strand = none)
      (hdone : k.places strand ≠ some .announcing ∨ k.Sole strand) : Goes strand k (l.giveUp strand.task)
  | aside {l : Circuit} (hnowhere : k.places strand = none) (hasides : ReflTransGen Aside k l) :
      Goes strand k l

/-- What an action does to the circuit. -/
inductive Step (k : Circuit) : ClientAction → Circuit → Prop
  | go {strand : Strand} {l : Circuit} (turn : Turn) (hgoes : k.Goes strand l) : Step k (.go strand turn) l
  | call (call : Call) : Step k (.call call) k
  /-- Something happens to the link, and only a loss of it shows. -/
  | link {action : ClientAction} {l : Circuit} (haction : ∀ strand turn, action ≠ .go strand turn)
      (hlink : l = k ∨ l = { k with up := false }) : Step k action l
  /-- Time passes. Whoever holds the lock and could go on would do so before. -/
  | pass (millis : Nat) (silent : Bool)
      (hwaits : ∀ strand, k.lock.holder = some strand →
        k.places strand ≠ some .queued ∧ k.places strand ≠ some .checking ∧
          k.places strand ≠ some .announcing) :
      Step k (.pass millis) { k with silent }

/-! ## The order of the line -/

variable {k l : Circuit} {strand other : Strand} {begun : List Effect}

/-- Whoever dials holds the lock. -/
theorem Dials.holder (h : k.Dials strand begun) (hk : Orderly k.lock k.places) :
    k.lock.holder = some strand := by
  rcases h with ⟨hplace, -⟩ | ⟨hplace, -, -⟩
  · exact hk.holder_of_inside hplace nofun nofun
  · exact hk.holder_of_inside hplace nofun nofun

/-- A strand that sees to the link keeps the line in order. -/
theorem Connect.orderly (h : k.Connect strand l) (hk : Orderly k.lock k.places) :
    Orderly l.lock l.places := by
  cases h with
  | ask hplace => exact hk.ask hplace
  | enter _ hholds => exact hk.move hholds nofun
  | hangUp _ hholds => exact hk.move hholds nofun
  | dial hplace => exact hk.move (hk.holder_of_inside hplace nofun nofun) nofun
  | fail _ hdials => exact hk.move (hdials.holder hk) nofun
  | succeed hdials => exact hk.move (hdials.holder hk) nofun
  | announce hplace => exact hk.release (hk.holder_of_inside hplace nofun nofun)
  | wake hplace => exact hk.move (hk.holder_of_inside hplace nofun nofun) nofun
  | leave hplace hasks _ hqueued => exact hk.release (hk.holder_of_leave hplace hasks fun h => (hqueued h).1)

theorem Aside.orderly (h : k.Aside l) (hk : Orderly k.lock k.places) : Orderly l.lock l.places := by
  cases h with
  | begin hnowhere hplaces => exact hk.begin hnowhere hplaces
  | giveUp task => exact hk.withdraw task
  | fall | hear | record | launch | read | lose => exact hk

/-- Whoever is through leaves the lock to one who has still to look at the link, if to anybody. -/
theorem Connect.queued_of_through (h : k.Connect strand l) (hk : Orderly k.lock k.places)
    (hthrough : l.places strand = none) {next : Strand} (hnext : l.lock.holder = some next) :
    l.places next = some .queued := by
  cases h with
  | announce hplace => exact hk.queued_of_release (hk.holder_of_inside hplace nofun nofun) hnext
  | leave hplace hasks _ hqueued =>
    exact hk.queued_of_release (hk.holder_of_leave hplace hasks fun h => (hqueued h).1) hnext
  | ask | enter | hangUp | dial | fail | succeed | wake => cases (places_put_self ..).symm.trans hthrough

/-- So nobody has a dial to make known then. -/
theorem Connect.quiet_of_through (h : k.Connect strand l) (hk : Orderly k.lock k.places)
    (hthrough : l.places strand = none) (other : Strand) : l.places other ≠ some .announcing := by
  intro hother
  have hholds := (h.orderly hk).holder_of_inside hother nofun nofun
  cases hother.symm.trans (h.queued_of_through hk hthrough hholds)

/-- What a strand does that makes a dial known. -/
theorem Connect.eq_of_announcing (h : k.Connect strand l) (hplace : k.places strand = some .announcing) :
    l = ({ k with silent := false, lock := k.lock.release }.record [.notified .connected]).put strand none := by
  cases h with
  | announce => rfl
  | ask hhere | enter hhere | hangUp hhere | dial hhere | wake hhere => cases hplace.symm.trans hhere
  | fail _ hdials | succeed hdials => rcases hdials with ⟨hhere, -⟩ | ⟨hhere, -⟩ <;> cases hplace.symm.trans hhere
  | leave hhere _ hannounces => exact absurd (Option.some.inj (hhere.symm.trans hplace)) hannounces

/-! ## What is kept -/

/-- A property that whatever is done to the circuit keeps. -/
structure Kept (P : Circuit → Prop) : Prop where
  connect : ∀ {strand : Strand} {k l : Circuit}, Orderly k.lock k.places → k.Connect strand l → P k → P l
  aside : ∀ {k l : Circuit}, Orderly k.lock k.places → k.Aside l → P k → P l
  pass : ∀ {k : Circuit} (silent : Bool), P k → P { k with silent }

/-- What an aside keeps is kept by any number of them. -/
theorem asides_induction {P : Circuit → Prop} (haside : ∀ {k l : Circuit}, k.Aside l → P k → P l)
    (h : ReflTransGen Aside k l) (hk : P k) : P l := by
  induction h with
  | refl => exact hk
  | tail _ hlast ih => exact haside hlast ih

/-- A read that comes to its end at once leaves the notice of the loss. -/
theorem asides_miss {task : Nat} (hreceiver : k.receivers task = some .connecting)
    (hquiet : ∀ strand, k.places strand ≠ some .announcing)
    (htold : k.effects.getLast? = some (.notified .connected)) (hdown : k.up = false) :
    ReflTransGen Aside k (k.record [.notified .disconnected]) := by
  have hread : k.Aside (k.setReceiver task (some (.reading k.number))) := .read hreceiver hquiet (.inr htold)
  have hlose := Aside.lose (k := k.setReceiver task (some (.reading k.number))) (Function.update_self task _ _)
    fun hup => absurd (hdown.symm.trans hup) Bool.noConfusion
  have hsame : ((k.setReceiver task (some (.reading k.number))).record [.notified .disconnected]).setReceiver task
      (some .connecting) = k.record [.notified .disconnected] := by
    simp only [setReceiver, record, Function.update_idem, ← hreceiver, Function.update_eq_self]
  rw [hsame] at hlose
  exact (ReflTransGen.single hread).tail hlose

/-- A step of a strand is a step of connecting if it sees to the link, and asides; those that follow a step of
connecting leave the link alone, and there are none unless the strand is through. -/
theorem Goes.connect_or_asides (h : k.Goes strand l) (hk : Orderly k.lock k.places) :
    (∃ m, k.Connect strand m ∧ ReflTransGen Aside m l ∧ l.up = m.up ∧ (l = m ∨ m.places strand = none)) ∨
      k.places strand = none ∧ ReflTransGen Aside k l := by
  cases h with
  | connect hconnect => exact .inl ⟨l, hconnect, .refl, rfl, .inl rfl⟩
  | read hconnect hthrough hreceiver hup =>
    have hread := Aside.read hreceiver (hconnect.quiet_of_through hk hthrough) (.inl hup)
    exact .inl ⟨_, hconnect, .single hread, rfl, .inr hthrough⟩
  | @miss m hplace hconnect hreceiver hdown =>
    have hm := hconnect.eq_of_announcing hplace
    have hthrough : m.places strand = none := by rw [hm, places_put_self]
    have htold : m.effects.getLast? = some (.notified .connected) := by
      rw [hm]
      exact List.getLast?_concat
    have hmiss := asides_miss hreceiver (hconnect.quiet_of_through hk hthrough) htold hdown
    exact .inl ⟨_, hconnect, hmiss, rfl, .inr hthrough⟩
  | finish hconnect hthrough => exact .inl ⟨_, hconnect, .single (.giveUp strand.task), rfl, .inr hthrough⟩
  | aside hnowhere hasides => exact .inr ⟨hnowhere, hasides⟩

theorem asides_orderly (h : ReflTransGen Aside k l) (hk : Orderly k.lock k.places) : Orderly l.lock l.places :=
  asides_induction (P := fun m => Orderly m.lock m.places) Aside.orderly h hk

/-- What is kept by one aside is kept by several. -/
theorem Kept.asides {P : Circuit → Prop} (hP : Kept P) (h : ReflTransGen Aside k l)
    (horder : Orderly k.lock k.places) (hk : P k) : P l :=
  (asides_induction (P := fun m => Orderly m.lock m.places ∧ P m)
    (fun haside ⟨horder, hm⟩ => ⟨haside.orderly horder, hP.aside horder haside hm⟩) h ⟨horder, hk⟩).2

/-- What is kept holds after every action. -/
theorem Kept.step {P : Circuit → Prop} (hP : Kept P) {action : ClientAction} (h : k.Step action l)
    (horder : Orderly k.lock k.places) (hk : P k) : P l := by
  cases h with
  | go turn hgoes =>
    rcases hgoes.connect_or_asides horder with ⟨m, hconnect, hasides, -, -⟩ | ⟨-, hasides⟩
    · exact hP.asides hasides (hconnect.orderly horder) (hP.connect horder hconnect hk)
    · exact hP.asides hasides horder hk
  | call => exact hk
  | link _ hlink =>
    rcases hlink with rfl | rfl
    · exact hk
    · exact hP.aside horder .fall hk
  | pass _ silent => exact hP.pass silent hk

/-- Every action keeps the line in order. -/
theorem orderly_step {action : ClientAction} (h : k.Step action l) (hk : Orderly k.lock k.places) :
    Orderly l.lock l.places := by
  have hkept : Kept fun k => Orderly k.lock k.places :=
    ⟨fun hk hconnect _ => hconnect.orderly hk, fun hk haside _ => haside.orderly hk, fun _ hk => hk⟩
  exact hkept.step h hk hk

/-! ## What leaves the circuit as it is -/

theorem setReceiver_eq_self {task : Nat} {receiver : Option Receiver}
    (h : k.receivers task = receiver) : k.setReceiver task receiver = k := by
  rw [setReceiver, ← h, Function.update_eq_self]

theorem put_eq_self {place : Option ConnectPlace}
    (h : k.places strand = place) : k.put strand place = k := by
  rw [put, ← h, Function.update_eq_self]

/-- It does not matter where a strand has gone whose task gives up. -/
theorem giveUp_put (strand : Strand) (place : Option ConnectPlace) (k : Circuit) :
    (k.put strand place).giveUp strand.task = k.giveUp strand.task := by
  have hplaces : ((k.put strand place).giveUp strand.task).places = (k.giveUp strand.task).places := by
    funext other
    simp only [giveUp, seat, setReceiver, put]
    split
    next => rfl
    next hother => exact Function.update_of_ne (fun heq => hother (congrArg Strand.task heq)) _ _
  exact congrArg (fun places => { k.giveUp strand.task with places }) hplaces

/-- A step after which the strand goes on. -/
theorem Moves.goes (h : k.Moves strand l) : k.Goes strand l := by
  cases h with
  | connect hconnect => exact .connect hconnect
  | aside hnowhere hasides => exact .aside hnowhere hasides

/-- A step after which the strand's task ends. -/
theorem Moves.giveUp (h : k.Moves strand (l.put strand none))
    (hdone : k.places strand ≠ some .announcing ∨ k.Sole strand) : k.Goes strand (l.giveUp strand.task) := by
  rw [← giveUp_put strand none l]
  cases h with
  | connect hconnect => exact .finish hconnect (places_put_self ..) hdone
  | aside hnowhere hasides => exact .aside hnowhere (hasides.tail (.giveUp strand.task))

/-- No aside brings the link up. -/
theorem asides_down (h : ReflTransGen Aside k l) (hdown : k.up = false) : l.up = false :=
  asides_induction (P := fun m => m.up = false)
    (fun haside hk => by cases haside <;> first | exact hk | rfl) h hdown

theorem asides_number (h : ReflTransGen Aside k l) : l.number = k.number :=
  asides_induction (P := fun m => m.number = k.number)
    (fun haside hk => by cases haside <;> exact hk) h rfl

end Circuit

/-- A dial that fails leaves the link as it is, and one that connects brings it up once more. -/
theorem Link.dial_cases (l : Link) :
    (l.dial.2 ≠ .connected ∧ l.dial.1.up = l.up ∧ l.dial.1.number = l.number) ∨
      (l.dial.2 = .connected ∧ l.dial.1.up = true ∧ l.dial.1.number = l.number + 1) := by
  unfold Link.dial
  split
  next => exact .inl ⟨DialOutcome.noConfusion, rfl, rfl⟩
  next =>
    split
    next => exact .inl ⟨DialOutcome.noConfusion, rfl, rfl⟩
    next => exact .inr ⟨rfl, rfl, rfl⟩

/-- A read that ends with a line leaves its link up; one that ends without finds its link gone. -/
theorem Link.read?_cases {l m : Link} {number : Nat} {outcome : ReadOutcome}
    (h : l.read? number = some (m, outcome)) :
    m.number = l.number ∧ (m.up = l.up ∨ m.up = false) ∧
      ((∃ bytes, outcome = .line bytes) ∧ m.up = true ∧ m.number = number ∨
        outcome = .gone ∧ (m.up = true → m.number ≠ number)) := by
  unfold Link.read? at h
  split at h
  next hlive =>
    split at h
    next => cases h
    next bytes _ _ => cases h; exact ⟨rfl, .inl rfl, .inl ⟨⟨bytes, rfl⟩, hlive⟩⟩
    next => cases h; exact ⟨rfl, .inr rfl, .inr ⟨rfl, nofun⟩⟩
  next hgone =>
    split at h
    next => cases h
    next => cases h; exact ⟨rfl, .inl rfl, .inr ⟨rfl, fun hup hnumber => hgone ⟨hup, hnumber⟩⟩⟩

namespace Client

variable {c d e : Client} {strand : Strand} {task : Nat} {turn : Turn} {was now : Task}

/-- Where a strand stands if it needs the link to be up. -/
def connectAt (strand : Strand) (c : Client) : Option ConnectPlace :=
  (c.tasks[strand.task]?).bind fun task => task.connectAt strand.branch

def receiverAt (task : Nat) (c : Client) : Option Receiver := (c.tasks[task]?).bind Task.receiver?

def circuit (c : Client) : Circuit :=
  { up := c.link.up, number := c.link.number, silent := decide (c.isStale? = some true),
    lock := c.connectLock, started := c.started, places := fun strand => c.connectAt strand,
    receivers := fun task => c.receiverAt task, effects := c.effects }

/-- A panel that has been heard of in this moment has not been silent. -/
theorem isStale?_of_heard (h : c.lastHeard = some c.now) : c.isStale? ≠ some true := by
  intro hstale
  unfold isStale? at hstale
  rw [h] at hstale
  obtain ⟨limit, -, hlimit⟩ := Option.map_eq_some_iff.mp hstale
  have hlt : limit.nanos < (c.now - c.now) * 1000000 := of_decide_eq_true hlimit
  rw [Nat.sub_self, Nat.zero_mul] at hlt
  exact Nat.not_lt_zero _ hlt

/-! ## Changes of the client that show on the circuit -/

theorem connectAt_of_task (h : c.tasks[strand.task]? = some was) :
    c.connectAt strand = was.connectAt strand.branch := by
  rw [connectAt, h, Option.bind_some]

theorem receiverAt_of_task (h : c.tasks[task]? = some was) : c.receiverAt task = was.receiver? := by
  rw [receiverAt, h, Option.bind_some]

theorem circuit_note (effect : Effect) (c : Client) : (c.note effect).circuit = c.circuit.record [effect] := by
  have heffects := effects_note effect c
  simp only [circuit, Circuit.record, heffects]
  rfl

theorem circuit_closeLink (c : Client) :
    c.closeLink.circuit = { c.circuit with up := false }.record [.closedLink] := circuit_note _ _

/-- What shows of a task are the places of its branches, and what it is about. -/
theorem circuit_setTask (h : c.tasks[task]? = some was) (now : Task) :
    (c.setTask task now).circuit = (c.circuit.seat task now.connectAt).setReceiver task now.receiver? := by
  have hlt : task < c.tasks.length := (List.getElem?_eq_some_iff.mp h).1
  have hplaces : (fun strand => (c.setTask task now).connectAt strand) =
      (c.circuit.seat task now.connectAt).places := by
    funext strand
    by_cases hs : strand.task = task
    · simp [connectAt, setTask, Circuit.seat, hs, List.getElem?_set_self hlt]
    · simp [connectAt, setTask, circuit, Circuit.seat, hs, List.getElem?_set_ne (Ne.symm hs)]
  have hreceivers : (fun other => (c.setTask task now).receiverAt other) =
      Function.update c.circuit.receivers task now.receiver? := by
    funext other
    by_cases hother : other = task
    · simp [receiverAt, setTask, hother, List.getElem?_set_self hlt]
    · simp [receiverAt, setTask, circuit, hother, List.getElem?_set_ne (Ne.symm hother)]
  exact congrArg₂ (fun places receivers => { c.circuit with places, receivers }) hplaces hreceivers

theorem seat_eq_self (h : c.tasks[task]? = some was) : c.circuit.seat task was.connectAt = c.circuit := by
  have hplaces : (c.circuit.seat task was.connectAt).places = c.circuit.places := by
    funext strand
    simp only [Circuit.seat]
    split
    next hs => exact (connectAt_of_task (hs ▸ h)).symm
    next => rfl
  exact congrArg (fun places => { c.circuit with places }) hplaces

/-- To put one branch of a task somewhere is to put its strand there. -/
theorem seat_eq_put (h : c.tasks[strand.task]? = some was) (place : Option ConnectPlace) :
    c.circuit.seat strand.task (Function.update was.connectAt strand.branch place) =
      c.circuit.put strand place := by
  have hplaces : (c.circuit.seat strand.task (Function.update was.connectAt strand.branch place)).places =
      (c.circuit.put strand place).places := by
    funext other
    simp only [Circuit.seat, Circuit.put]
    split
    next hs =>
      by_cases hb : other.branch = strand.branch
      · obtain rfl : other = strand := congrArg₂ Strand.mk hs hb
        simp
      · rw [Function.update_of_ne hb, Function.update_of_ne fun heq => hb (congrArg Strand.branch heq)]
        exact (connectAt_of_task (hs ▸ h)).symm
    next hs => rw [Function.update_of_ne fun heq => hs (congrArg Strand.task heq)]
  exact congrArg (fun places => { c.circuit with places }) hplaces

/-- A task that is about the same as before shows by the places of its branches only. -/
theorem circuit_setTask_seat (h : c.tasks[task]? = some was) (hreceiver : now.receiver? = was.receiver?) :
    (c.setTask task now).circuit = c.circuit.seat task now.connectAt := by
  rw [circuit_setTask h, Circuit.setReceiver_eq_self]
  rw [hreceiver]
  exact receiverAt_of_task h

/-- A task that goes on without seeing to the link does not show. -/
theorem circuit_setTask_self (h : c.tasks[task]? = some was) (hreceiver : now.receiver? = was.receiver?)
    (hplaces : now.connectAt = was.connectAt) : (c.setTask task now).circuit = c.circuit := by
  rw [circuit_setTask_seat h hreceiver, hplaces, seat_eq_self h]

theorem asides_setTask (h : c.tasks[task]? = some was) (hreceiver : now.receiver? = was.receiver?)
    (hplaces : now.connectAt = was.connectAt) :
    ReflTransGen Circuit.Aside c.circuit (c.setTask task now).circuit := by
  rw [circuit_setTask_self h hreceiver hplaces]

/-- One strand of the task goes on to another place. -/
theorem circuit_setTask_put {place : Option ConnectPlace} (h : c.tasks[strand.task]? = some was)
    (hreceiver : now.receiver? = was.receiver?)
    (hplaces : now.connectAt = Function.update was.connectAt strand.branch place) :
    (c.setTask strand.task now).circuit = c.circuit.put strand place := by
  rw [circuit_setTask_seat h hreceiver, hplaces, seat_eq_put h]

/-- A task that is started sees to nothing yet. -/
theorem circuit_addTask {state : Task} (hplaces : state.connectAt = fun _ => none) (c : Client) :
    (c.addTask state).circuit = c.circuit.setReceiver c.tasks.length state.receiver? := by
  have hold {task : Nat} (h : task < c.tasks.length) : (c.addTask state).tasks[task]? = c.tasks[task]? :=
    List.getElem?_append_left h
  have hnew : (c.addTask state).tasks[c.tasks.length]? = some state := List.getElem?_concat_length
  have hnone {task : Nat} (h : c.tasks.length < task) :
      (c.addTask state).tasks[task]? = c.tasks[task]? := by
    rw [List.getElem?_eq_none (Nat.le_of_lt h)]
    exact List.getElem?_eq_none (by rw [addTask, List.length_append]; exact h)
  have heqPlaces : (fun strand => (c.addTask state).connectAt strand) = c.circuit.places := by
    funext strand
    show _ = (c.tasks[strand.task]?).bind _
    rcases Nat.lt_trichotomy strand.task c.tasks.length with hlt | heq | hgt
    · rw [connectAt, hold hlt]
    · rw [connectAt, heq, hnew, Option.bind_some, hplaces, List.getElem?_eq_none (Nat.le_refl _)]
      rfl
    · rw [connectAt, hnone hgt]
  have heqReceivers : (fun task => (c.addTask state).receiverAt task) =
      Function.update c.circuit.receivers c.tasks.length state.receiver? := by
    funext task
    rcases Nat.lt_trichotomy task c.tasks.length with hlt | rfl | hgt
    · rw [receiverAt, hold hlt, Function.update_of_ne (Nat.ne_of_lt hlt)]
      rfl
    · rw [receiverAt, hnew, Function.update_self, Option.bind_some]
    · rw [receiverAt, hnone hgt, Function.update_of_ne (Nat.ne_of_gt hgt)]
      rfl
  exact congrArg₂ (fun places receivers => { c.circuit with places, receivers }) heqPlaces heqReceivers

/-- A task that is ended gives up what it holds and asks for. -/
theorem circuit_finish {role : Role} (h : c.tasks[task]? = some was) (hrole : role = was.role)
    (ending : Ending) : (c.finish task role ending).circuit = c.circuit.giveUp task := by
  have hwithdraw : (c.withdraw task).tasks[task]? = some was := h
  rw [finish, circuit_setTask hwithdraw, hrole, Task.receiver?_over, Circuit.giveUp]
  have hreceiver : c.circuit.receivers task = was.receiver? := receiverAt_of_task h
  rw [hreceiver]
  rfl

/-- A task that is ended gives up what it holds and asks for. -/
theorem aside_finish {role : Role} {ending : Ending} (h : c.tasks[task]? = some was)
    (hrole : role = was.role) : c.circuit.Aside (c.finish task role ending).circuit := by
  rw [circuit_finish h hrole]
  exact .giveUp task

/-- A task whose strands are nowhere begins to see to the link. -/
theorem aside_begin (h : c.tasks[task]? = some was) (hreceiver : now.receiver? = was.receiver?)
    (hwas : was.connectAt = fun _ => none)
    (hnow : ∀ branch, now.connectAt branch = none ∨ now.connectAt branch = some .asking) :
    c.circuit.Aside (c.setTask task now).circuit := by
  rw [circuit_setTask_seat h hreceiver]
  refine .begin (fun strand hstrand => ?_) hnow
  have hat : c.connectAt strand = was.connectAt strand.branch := connectAt_of_task (hstrand ▸ h)
  rw [hwas] at hat
  exact hat

variable {k : Circuit} {place : Option ConnectPlace}

/-- A strand that is through may end its task. -/
theorem goes_finish {role : Role} {ending : Ending} (hmoves : k.Moves strand (c.circuit.put strand none))
    (hdone : k.places strand ≠ some .announcing ∨ k.Sole strand)
    (h : c.tasks[strand.task]? = some was) (hrole : role = was.role) :
    k.Goes strand (c.finish strand.task role ending).circuit := by
  rw [circuit_finish h hrole]
  exact hmoves.giveUp hdone

/-- A strand that moves is put at its next place, and the rest of its task stays. -/
theorem goes_setTask (hmoves : k.Moves strand (c.circuit.put strand place))
    (h : c.tasks[strand.task]? = some was) (hreceiver : now.receiver? = was.receiver?)
    (hplaces : now.connectAt = Function.update was.connectAt strand.branch place) :
    k.Goes strand (c.setTask strand.task now).circuit := by
  rw [circuit_setTask_put h hreceiver hplaces]
  exact hmoves.goes

/-- A strand of a task that carries on nothing side by side is the only one. -/
theorem sole_of_task (h : c.tasks[strand.task]? = some was) (hbranch : strand.branch = 0)
    (hwas : was.connectAt = soleBranch place) : c.circuit.Sole strand := by
  intro other htask hne
  have hother : other.branch ≠ 0 := fun hzero =>
    hne (congrArg₂ Strand.mk htask (hzero.trans hbranch.symm))
  have hat : c.connectAt other = was.connectAt other.branch := connectAt_of_task (htask ▸ h)
  show c.connectAt other = none
  rw [hat, hwas]
  exact Function.update_of_ne hother _ _

end Client

end AlarmPanel
