import GChat.Presentation.Model

/-!
# What a snapshot request returns

A snapshot is cached under the versions of the changes it was begun at, and a lock raises the
version before it lets the session go. So what is returned was begun after every change that was
complete at the start of the request, and a waiter sleeps on a snapshot begun after the last
change.
-/

namespace GChat

namespace Presentation

open Foundation

/-! ### What a task has seen and has to return -/

def Work.mark : Work → Option ℕ
  | .subscribing _ service => some service
  | _ => none

def Caller.watch : Caller → Option Watch
  | .request => none
  | .waiter _ watch => some watch

def Work.watch : Work → Option Watch
  | .entering caller => caller.watch
  | .inside caller => caller.watch
  | .finished caller _ _ => caller.watch
  | .asleep _ watch _ _ => some watch
  | _ => none

def Outcome.snapshot : Outcome → Option Snapshot
  | .shown snapshot => some snapshot
  | _ => none

def Outcome.epoch : Outcome → Option ℕ
  | .closed epoch => some epoch
  | _ => none

def Work.outcome : Work → Option Outcome
  | .released _ _ outcome => some outcome
  | .dropping _ outcome => some outcome
  | .returning outcome => some outcome
  | _ => none

/-- What a task has read and not returned yet. -/
def Work.unreturned (work : Work) : Option Snapshot :=
  match work with
  | .finished _ snapshot _ => some snapshot
  | work => work.outcome.bind Outcome.snapshot

/-- What a task has read last. -/
def Work.shown (work : Work) : Option Snapshot :=
  match work with
  | .asleep _ _ snapshot _ => some snapshot
  | work => work.unreturned

structure Watch.Ok (s : Service) (watch : Watch) : Prop where
  service : watch.service ≤ s.changes.service
  seen : watch.seen ≤ s.changes.client
  some : watch.service = s.changes.service → ∀ client, watch.client = some client →
    s.clients = client ∧ (s.session.isSome = true ∨ s.isClosing = true)
  none : watch.service = s.changes.service → watch.client = none →
    s.changes.client = watch.seen ∧ (s.session.isSome = true → s.opening = true)

structure Task.Ok (s : Service) (task : Task) : Prop where
  start : task.start ≤ s.changes
  mark : ∀ service, task.work.mark = some service → service ≤ s.changes.service
  watch : ∀ watch, task.work.watch = some watch → watch.Ok s
  begun : ∀ snapshot, task.work.shown = some snapshot →
    task.start ≤ snapshot.begun ∧ snapshot.begun ≤ s.changes
  behind : ∀ snapshot watch, task.work.shown = some snapshot → task.work.watch = some watch →
    watch.service ≤ snapshot.begun.service ∧ watch.seen ≤ snapshot.begun.client
  closed : ∀ snapshot, task.work.unreturned = some snapshot → snapshot.unlocked = true →
    s.closed ≤ snapshot.epoch
  epoch : ∀ epoch, task.work.outcome.bind Outcome.epoch = some epoch → epoch ≤ s.epoch
  asleep : ∀ wait watch snapshot expires, task.work = .asleep wait watch snapshot expires →
    snapshot.revision = wait.after

/-! ### What the holder of the session has read -/

/-- The versions were read since the session was taken. -/
structure Service.Read (s : Service) (begun : Changes) (clientVersion : ℕ) (locked : Bool) :
    Prop where
  past : begun ≤ s.changes
  locked : locked = s.locked
  none : s.session = none → begun.client = s.changes.client
  some : ∀ current, s.session = some current →
    current.base ≤ begun.client ∧ clientVersion = (begun.client - current.base) % versions

/-- What is cached belongs to the session, if it is locked the same way. -/
structure Cached.Fits (s : Service) (cached : Cached) : Prop where
  locked : s.locked = true → cached.locked = true
  none : cached.locked = s.locked → s.session = none →
    cached.snapshot.begun.client = s.changes.client
  some : cached.locked = s.locked → ∀ current, s.session = some current →
    current.base ≤ cached.snapshot.begun.client ∧
      cached.clientVersion = (cached.snapshot.begun.client - current.base) % versions
  epoch : cached.locked = false → cached.snapshot.epoch = s.epoch

/-- The versions were read after the task started and after it subscribed. -/
def Service.Follows (s : Service) (i : ℕ) (begun : Changes) : Prop :=
  ∃ task, s.tasks[i]? = some task ∧ task.start ≤ begun ∧
    ∀ watch, task.work.watch = some watch →
      watch.service ≤ begun.service ∧ watch.seen ≤ begun.client

def Held.Ok (s : Service) : Held → Prop
  | .reading i service =>
      service ≤ s.changes.service ∧ s.Follows i ⟨service, s.changes.client⟩ ∧
        ∀ cached, s.cache = some cached → cached.snapshot.begun.service ≤ service ∧
          (cached.snapshot.begun.service = service → cached.Fits s)
  | .looking i begun clientVersion locked =>
      s.Read begun clientVersion locked ∧ s.Follows i begun ∧
        ∀ cached, s.cache = some cached →
          cached.serviceVersion = begun.service % versions →
          cached.clientVersion = clientVersion → cached.locked = locked →
            cached.snapshot.begun = begun ∧ (locked = false → cached.snapshot.epoch = s.epoch)
  | .building i begun clientVersion locked _ =>
      s.Read begun clientVersion locked ∧ s.Follows i begun
  | .storing i cached =>
      s.Read cached.snapshot.begun cached.clientVersion cached.locked ∧
        s.Follows i cached.snapshot.begun ∧ cached.snapshot.epoch = s.epoch ∧
        cached.serviceVersion = cached.snapshot.begun.service % versions ∧
        cached.snapshot.unlocked = !cached.locked
  | .changing _ => True
  | .closing _ epoch => epoch ≤ s.epoch
  | .cleared _ epoch => epoch ≤ s.epoch

structure Cached.Ok (s : Service) (cached : Cached) : Prop where
  version : cached.serviceVersion = cached.snapshot.begun.service % versions
  begun : cached.snapshot.begun ≤ s.changes
  unlocked : cached.snapshot.unlocked = !cached.locked
  fits : s.isClosing = false → cached.snapshot.begun.service = s.changes.service → cached.Fits s

def Answer.Ok (answer : Answer) : Prop :=
  answer.start ≤ answer.snapshot.begun ∧
    (answer.snapshot.unlocked = true → answer.closed ≤ answer.snapshot.epoch)

structure Service.Inv (s : Service) : Prop where
  service : s.changes.service < versions
  client : s.changes.client < versions
  base : ∀ current, s.session = some current → current.base ≤ s.changes.client
  closed : s.closed ≤ s.epoch
  cache : ∀ cached, s.cache = some cached → cached.Ok s
  held : ∀ held, s.held = some held → held.Ok s
  tasks : ∀ task ∈ s.tasks, task.Ok s
  answers : ∀ answer ∈ s.answers, answer.Ok

/-- Nothing that a task has seen is undone. -/
structure Service.Extends (s t : Service) : Prop where
  changes : s.changes ≤ t.changes
  epoch : s.epoch ≤ t.epoch
  closed : t.closed = s.closed
  some : t.changes.service = s.changes.service →
    s.session.isSome = true ∨ s.isClosing = true →
      t.clients = s.clients ∧ (t.session.isSome = true ∨ t.isClosing = true)
  none : t.changes.service = s.changes.service → (s.session.isSome = true → s.opening = true) →
    t.changes.client = s.changes.client ∧ (t.session.isSome = true → t.opening = true)

section Extends

variable {s t : Service}

theorem Service.Extends.of_service (hservice : s.changes.service < t.changes.service)
    (hclient : s.changes.client ≤ t.changes.client) (hepoch : s.epoch ≤ t.epoch)
    (hclosed : t.closed = s.closed) : s.Extends t :=
  ⟨⟨hservice.le, hclient⟩, hepoch, hclosed, fun h => absurd h hservice.ne',
    fun h => absurd h hservice.ne'⟩

theorem Watch.Ok.extends {watch : Watch} (h : watch.Ok s) (hext : s.Extends t) : watch.Ok t := by
  have hsame : watch.service = t.changes.service → t.changes.service = s.changes.service :=
    fun hw => Nat.le_antisymm (hw ▸ h.service) hext.changes.1
  refine ⟨le_trans h.service hext.changes.1, le_trans h.seen hext.changes.2, ?_, ?_⟩
  · intro hw client hclient
    obtain ⟨hclients, hsession⟩ := h.some (hw.trans (hsame hw)) client hclient
    obtain ⟨hclients', hsession'⟩ := hext.some (hsame hw) hsession
    exact ⟨hclients'.trans hclients, hsession'⟩
  · intro hw hclient
    obtain ⟨hseen, hopening⟩ := h.none (hw.trans (hsame hw)) hclient
    obtain ⟨hseen', hopening'⟩ := hext.none (hsame hw) hopening
    exact ⟨hseen'.trans hseen, hopening'⟩

theorem Task.Ok.extends {task : Task} (h : task.Ok s) (hext : s.Extends t) : task.Ok t where
  start := le_trans h.start hext.changes
  mark service hmark := (h.mark service hmark).trans hext.changes.1
  watch watch hwatch := (h.watch watch hwatch).extends hext
  begun snapshot hshown :=
    ⟨(h.begun snapshot hshown).1, le_trans (h.begun snapshot hshown).2 hext.changes⟩
  behind := h.behind
  closed snapshot hshown hunlocked := by
    rw [hext.closed]
    exact h.closed snapshot hshown hunlocked
  epoch epoch hepoch := (h.epoch epoch hepoch).trans hext.epoch
  asleep := h.asleep

/-- The session is the same, and what was read of it still holds. -/
structure Service.Keeps (s t : Service) : Prop where
  changes : s.changes ≤ t.changes
  session : t.session = s.session
  client : s.session = none → t.changes.client = s.changes.client
  epoch : t.epoch = s.epoch
  cache : ∀ cached, t.cache = some cached → s.cache = some cached

theorem Service.Keeps.locked (h : s.Keeps t) : t.locked = s.locked := by
  rw [Service.locked, Service.locked, h.session]

theorem Service.Read.keeps {begun : Changes} {clientVersion : ℕ} {locked : Bool}
    (h : s.Read begun clientVersion locked) (hkeeps : s.Keeps t) :
    t.Read begun clientVersion locked where
  past := le_trans h.past hkeeps.changes
  locked := h.locked.trans hkeeps.locked.symm
  none hsession := by
    rw [hkeeps.session] at hsession
    exact (h.none hsession).trans (hkeeps.client hsession).symm
  some current hsession := by
    rw [hkeeps.session] at hsession
    exact h.some current hsession

theorem Cached.Fits.keeps {cached : Cached} (h : cached.Fits s) (hkeeps : s.Keeps t) :
    cached.Fits t where
  locked hlocked := h.locked (hkeeps.locked ▸ hlocked)
  none hlocked hsession := by
    rw [hkeeps.session] at hsession
    exact (h.none (hlocked.trans hkeeps.locked) hsession).trans (hkeeps.client hsession).symm
  some hlocked current hsession := by
    rw [hkeeps.session] at hsession
    exact h.some (hlocked.trans hkeeps.locked) current hsession
  epoch hlocked := (h.epoch hlocked).trans hkeeps.epoch.symm

theorem Service.Follows.le {i : ℕ} {a b : Changes} (h : s.Follows i a) (hab : a ≤ b) :
    s.Follows i b := by
  obtain ⟨task, htask, hstart, hwatch⟩ := h
  exact ⟨task, htask, le_trans hstart hab, fun watch hw =>
    ⟨(hwatch watch hw).1.trans hab.1, (hwatch watch hw).2.trans hab.2⟩⟩

theorem Held.Ok.keeps {held : Held} (h : held.Ok s) (hkeeps : s.Keeps t)
    (hfollow : ∀ i begun, s.Follows i begun → t.Follows i begun) : held.Ok t := by
  cases held with
  | reading i service =>
      obtain ⟨hservice, hfollows, hcache⟩ := h
      refine ⟨hservice.trans hkeeps.changes.1, ?_, fun cached hcached => ?_⟩
      · exact hfollow i _ (hfollows.le ⟨Nat.le_refl _, hkeeps.changes.2⟩)
      · obtain ⟨hle, hfits⟩ := hcache cached (hkeeps.cache cached hcached)
        exact ⟨hle, fun heq => (hfits heq).keeps hkeeps⟩
  | looking i begun clientVersion locked =>
      obtain ⟨hread, hfollows, hcache⟩ := h
      refine ⟨hread.keeps hkeeps, hfollow i _ hfollows, ?_⟩
      intro cached hcached hversion hclient hlocked
      obtain ⟨hbegun, hepoch⟩ :=
        hcache cached (hkeeps.cache cached hcached) hversion hclient hlocked
      exact ⟨hbegun, fun hl => (hepoch hl).trans hkeeps.epoch.symm⟩
  | building i begun clientVersion locked now =>
      exact ⟨h.1.keeps hkeeps, hfollow i _ h.2⟩
  | storing i cached =>
      obtain ⟨hread, hfollows, hepoch, hrest⟩ := h
      exact ⟨hread.keeps hkeeps, hfollow i _ hfollows, hepoch.trans hkeeps.epoch.symm,
        hrest⟩
  | changing i => exact trivial
  | closing i epoch => exact Nat.le_trans h hkeeps.epoch.ge
  | cleared i epoch => exact Nat.le_trans h hkeeps.epoch.ge

theorem Cached.Ok.keeps {cached : Cached} (h : cached.Ok s) (hkeeps : s.Keeps t)
    (hclosing : t.isClosing = s.isClosing) : cached.Ok t where
  version := h.version
  begun := le_trans h.begun hkeeps.changes
  unlocked := h.unlocked
  fits hclosed hservice := by
    have hsame : cached.snapshot.begun.service = s.changes.service :=
      Nat.le_antisymm h.begun.1 (hservice ▸ hkeeps.changes.1)
    exact (h.fits (hclosing ▸ hclosed) hsame).keeps hkeeps

/-! ### Steps of one task -/

/-- The versions, the session and the locks are as before. -/
structure Service.Same (s t : Service) : Prop where
  changes : t.changes = s.changes
  session : t.session = s.session
  clients : t.clients = s.clients
  epoch : t.epoch = s.epoch
  closed : t.closed = s.closed
  cache : ∀ cached, t.cache = some cached → s.cache = some cached
  closing : t.isClosing = s.isClosing

theorem Service.Same.keeps (h : s.Same t) : s.Keeps t :=
  ⟨h.changes.ge, h.session, fun _ => by rw [h.changes], h.epoch, h.cache⟩

theorem Service.Same.extends (h : s.Same t) (hopening : s.opening = true → t.opening = true) :
    s.Extends t := by
  refine ⟨h.changes.ge, h.epoch.ge, h.closed, fun _ hsession => ?_, fun _ hsession => ?_⟩
  · rw [h.session, h.closing]
    exact ⟨h.clients, hsession⟩
  · rw [h.session, h.changes]
    exact ⟨rfl, fun hsome => hopening (hsession hsome)⟩

/-- What is left to show of a step that only moves one task on. -/
theorem Service.Inv.same (h : s.Inv) (hsame : s.Same t)
    (hopening : s.opening = true → t.opening = true)
    (hheld : ∀ held, t.held = some held → held.Ok t)
    (htasks : ∀ task ∈ t.tasks, task ∈ s.tasks ∨ task.Ok s)
    (hanswers : ∀ answer ∈ t.answers, answer ∈ s.answers ∨ answer.Ok) : t.Inv where
  service := by
    rw [hsame.changes]
    exact h.service
  client := by
    rw [hsame.changes]
    exact h.client
  base current hcurrent := by
    rw [hsame.changes]
    exact h.base current (hsame.session ▸ hcurrent)
  closed := by
    rw [hsame.closed, hsame.epoch]
    exact h.closed
  cache cached hcached := (h.cache cached (hsame.cache cached hcached)).keeps hsame.keeps
    hsame.closing
  held := hheld
  tasks task htask := by
    obtain htask | hok := htasks task htask
    · exact (h.tasks task htask).extends (hsame.extends hopening)
    · exact hok.extends (hsame.extends hopening)
  answers answer hanswer := by
    obtain hanswer | hok := hanswers answer hanswer
    · exact h.answers answer hanswer
    · exact hok

end Extends

section Put

variable {s : Service} {i : ℕ} {start : Changes} {old work : Work}

theorem opening_put (hi : s.tasks[i]? = some ⟨start, old⟩)
    (hopener : Task.isOpener ⟨start, old⟩ = true → Task.isOpener ⟨start, work⟩ = true)
    (h : s.opening = true) : (s.put i start work).opening = true := by
  rw [Service.opening, List.any_eq_true] at h ⊢
  obtain ⟨task, htask, hopens⟩ := h
  obtain ⟨j, hj⟩ := List.getElem?_of_mem htask
  by_cases hij : i = j
  · subst hij
    rw [hi] at hj
    cases hj
    refine ⟨⟨start, work⟩, ?_, hopener hopens⟩
    exact List.mem_set (List.getElem?_eq_some_iff.mp hi).1 _
  · refine ⟨task, ?_, hopens⟩
    exact List.mem_of_getElem? ((List.getElem?_set_ne hij).trans hj)

theorem follows_put (hi : s.tasks[i]? = some ⟨start, old⟩)
    (hwatch : ∀ watch, work.watch = some watch → old.watch = some watch) (j : ℕ)
    (begun : Changes) (h : s.Follows j begun) : (s.put i start work).Follows j begun := by
  obtain ⟨task, htask, hstart, hfollows⟩ := h
  by_cases hij : i = j
  · subst hij
    rw [hi] at htask
    cases htask
    refine ⟨⟨start, work⟩, ?_, hstart, fun watch hw => hfollows watch (hwatch watch hw)⟩
    exact List.getElem?_set_self (List.getElem?_eq_some_iff.mp hi).1
  · exact ⟨task, (List.getElem?_set_ne hij).trans htask, hstart, hfollows⟩

theorem mem_put {task : Task} (h : task ∈ (s.put i start work).tasks) :
    task ∈ s.tasks ∨ task = ⟨start, work⟩ :=
  List.mem_or_eq_of_mem_set h

theorem isClosing_of_held {held : Held} (h : s.held = some held) :
    s.isClosing = held.isClosing := by
  rw [Service.isClosing, h]
  rfl

theorem isClosing_of_free (h : s.held = none) : s.isClosing = false := by
  rw [Service.isClosing, h]
  rfl

/-- A task moves on, and the session is held as before. -/
theorem Service.Inv.put (h : s.Inv) (hi : s.tasks[i]? = some ⟨start, old⟩)
    (hok : Task.Ok s ⟨start, work⟩)
    (hwatch : s.held = none ∨ ∀ watch, work.watch = some watch → old.watch = some watch)
    (hopener : Task.isOpener ⟨start, old⟩ = true → Task.isOpener ⟨start, work⟩ = true) :
    (s.put i start work).Inv := by
  have hsame : s.Same (s.put i start work) :=
    ⟨rfl, rfl, rfl, rfl, rfl, fun _ hc => hc, rfl⟩
  refine h.same hsame (opening_put hi hopener) (fun held hheld => ?_) (fun task htask => ?_)
    (fun _ ha => Or.inl ha)
  · obtain hnone | hwatch := hwatch
    · exact absurd (hnone.symm.trans hheld) nofun
    · exact (h.held held hheld).keeps hsame.keeps (follows_put hi hwatch)
  · obtain htask | rfl := mem_put htask
    · exact Or.inl htask
    · exact Or.inr hok

/-- The cache may be cleared at any moment. -/
theorem Service.Inv.clear (h : s.Inv) : ({ s with cache := none } : Service).Inv := by
  have hsame : s.Same { s with cache := none } := ⟨rfl, rfl, rfl, rfl, rfl, nofun, rfl⟩
  exact h.same hsame (fun ho => ho)
    (fun held hheld => (h.held held hheld).keeps hsame.keeps fun _ _ hf => hf)
    (fun _ ht => Or.inl ht) (fun _ ha => Or.inl ha)

/-- The holder of the session goes on. -/
theorem Service.Inv.hold (h : s.Inv) {held : Held} (hclosing : s.isClosing = false)
    (hopen : held.isClosing = false) (hok : held.Ok { s with held := some held }) :
    ({ s with held := some held } : Service).Inv := by
  refine h.same ⟨rfl, rfl, rfl, rfl, rfl, fun _ hc => hc, ?_⟩ (fun ho => ho)
    (fun other hother => ?_) (fun _ ht => Or.inl ht) (fun _ ha => Or.inl ha)
  · rw [hclosing]
    exact hopen
  · cases hother
    exact hok

theorem Service.Inv.answer (h : s.Inv) {snapshot : Snapshot}
    (hi : s.tasks[i]? = some ⟨start, old⟩) (hshown : old.unreturned = some snapshot)
    (hbegun : start ≤ snapshot.begun)
    (hopener : Task.isOpener ⟨start, old⟩ = false) : (s.answer i start snapshot).Inv := by
  have hstart : start ≤ s.changes := (h.tasks _ (List.mem_of_getElem? hi)).start
  have hput : (s.put i start .gone).Inv :=
    h.put hi ⟨hstart, nofun, nofun, nofun, nofun, nofun, nofun, nofun⟩ (Or.inr nofun)
      (fun ho => absurd (hopener.symm.trans ho) nofun)
  refine ⟨hput.service, hput.client, hput.base, hput.closed, ?_, ?_, ?_, ?_⟩
  · exact fun cached hc => (hput.cache cached hc).keeps ⟨le_rfl, rfl, fun _ => rfl, rfl,
      fun _ h => h⟩ rfl
  · exact fun held hh => (hput.held held hh).keeps ⟨le_rfl, rfl, fun _ => rfl, rfl,
      fun _ h => h⟩ fun _ _ hf => hf
  · exact fun task ht => (hput.tasks task ht).extends ⟨le_rfl, le_rfl, rfl,
      fun _ hs => ⟨rfl, hs⟩, fun _ hs => ⟨rfl, hs⟩⟩
  · intro answer hanswer
    obtain hanswer | hanswer := List.mem_append.mp hanswer
    · exact h.answers answer hanswer
    · rw [List.mem_singleton.mp hanswer]
      exact ⟨hbegun, (h.tasks _ (List.mem_of_getElem? hi)).closed snapshot hshown⟩

end Put

end Presentation

end GChat
