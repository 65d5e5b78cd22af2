/-
Several relay processes on one machine, in one working directory. Each
takes the lock of its configured database (`acquire_instance_lock`), opens
the queue, runs its dispatcher and drops the lock when it exits.

No lock is held twice (`Instances.exclusive`), but the lock is named after
the database as configured and the queue is opened by its URL, and the two
names do not go together (`one_instance_iff`).
-/
import OxidRelay.Startup

namespace OxidRelay

/-! ## Processes -/

structure Process where
  /-- The configured `queue.database`. -/
  database : String
  /-- What `acquire_instance_lock` returned, kept until the exit. -/
  lock : Option String
  /-- The dispatcher runs on the database. -/
  dispatching : Bool

/-- The relay processes by process id. -/
abbrev Processes := Nat → Option Process

namespace Instances

/-- One step of one process. A file lock is held by at most one process,
so what is locked now was not held; a process refused ends at once. -/
inductive Step (databases : String → Prop) : Processes → Processes → Prop
  | start {s : Processes} {pid : Nat} {database : String} {tryLock : String → TryLock} {lock : Option String}
      (hnew : s pid = none) (hdatabase : databases database)
      (hexclusive : ∀ path, tryLock path = .locked → ∀ pid' p, s pid' = some p → p.lock ≠ some path)
      (hlock : acquireInstanceLock tryLock database = .ok lock) :
      Step databases s (Function.update s pid (some ⟨database, lock, false⟩))
  | dispatch {s : Processes} {pid : Nat} {p : Process} (hp : s pid = some p) :
      Step databases s (Function.update s pid (some { p with dispatching := true }))
  | exit {s : Processes} {pid : Nat} : Step databases s (Function.update s pid none)

/-- No process runs. -/
def idle : Processes := fun _ => none

/-- No two dispatchers run on one database on disk, in any run of
processes with the given databases. What the driver opens on disk is
`onDisk`, of the URL. -/
def AtMostOne (onDisk : String → Prop) (databases : String → Prop) : Prop :=
  ∀ s, Run (Step databases) idle s → ∀ pid pid' p p', s pid = some p → s pid' = some p' →
    p.dispatching = true → p'.dispatching = true →
      sqliteUrl p.database = sqliteUrl p'.database → onDisk (sqliteUrl p.database) → pid = pid'

end Instances

/-! ## Locks -/

theorem acquireInstanceLock_ok {tryLock : String → TryLock} {database : String} {lock : Option String}
    (h : acquireInstanceLock tryLock database = .ok lock) :
    ((Str.contains database ":memory:" || Str.isEmpty (Str.trim database)) = true ∧ lock = none) ∨
      ((Str.contains database ":memory:" || Str.isEmpty (Str.trim database)) = false ∧
        lock = some (lockPath database) ∧ tryLock (lockPath database) = .locked) := by
  simp only [acquireInstanceLock] at h
  split at h
  · next hnone => cases h; exact .inl ⟨hnone, rfl⟩
  · next hsome =>
    refine .inr ⟨by simpa using hsome, ?_⟩
    cases ht : tryLock (lockPath database) <;> rw [ht] at h <;> cases h
    exact ⟨rfl, rfl⟩

namespace Instances

variable {databases : String → Prop} {s s' : Processes}

/-- What holds of the processes at any time. -/
structure Inv (databases : String → Prop) (s : Processes) : Prop where
  database : ∀ pid p, s pid = some p → databases p.database
  /-- Only a database in memory goes without a lock. -/
  locked : ∀ pid p, s pid = some p →
    Str.contains p.database ":memory:" = false → Str.isEmpty (Str.trim p.database) = false →
      p.lock = some (lockPath p.database)
  exclusive : ∀ pid pid' p p' path, s pid = some p → s pid' = some p' → p.lock = some path →
    p'.lock = some path → pid = pid'

theorem inv_idle : Inv databases idle := by
  refine ⟨?_, ?_, ?_⟩ <;> intros <;> contradiction

theorem update_eq_some {α : Type} {s : Nat → Option α} {pid₀ pid : Nat} {o : Option α} {p : α}
    (h : Function.update s pid₀ o pid = some p) : pid = pid₀ ∧ o = some p ∨ pid ≠ pid₀ ∧ s pid = some p := by
  by_cases he : pid = pid₀
  · rw [he, Function.update_self] at h
    exact .inl ⟨he, h⟩
  · rw [Function.update_of_ne he] at h
    exact .inr ⟨he, h⟩

/-- A process may change to one with a lock that no other process has. -/
theorem Inv.update (h : Inv databases s) {pid₀ : Nat} {o : Option Process}
    (hdatabase : ∀ p, o = some p → databases p.database)
    (hlocked : ∀ p, o = some p → Str.contains p.database ":memory:" = false →
      Str.isEmpty (Str.trim p.database) = false → p.lock = some (lockPath p.database))
    (hexclusive : ∀ p path, o = some p → p.lock = some path →
      ∀ pid p', pid ≠ pid₀ → s pid = some p' → p'.lock ≠ some path) :
    Inv databases (Function.update s pid₀ o) := by
  refine ⟨fun pid p hp => ?_, fun pid p hp => ?_, fun pid pid' p p' path hp hp' hl hl' => ?_⟩
  · rcases update_eq_some hp with ⟨-, ho⟩ | ⟨-, hp⟩
    · exact hdatabase p ho
    · exact h.database pid p hp
  · rcases update_eq_some hp with ⟨-, ho⟩ | ⟨-, hp⟩
    · exact hlocked p ho
    · exact h.locked pid p hp
  · rcases update_eq_some hp with ⟨he, ho⟩ | ⟨hne, hp⟩ <;>
      rcases update_eq_some hp' with ⟨he', ho'⟩ | ⟨hne', hp'⟩
    · rw [he, he']
    · exact absurd hl' (hexclusive p path ho hl pid' p' hne' hp')
    · exact absurd hl (hexclusive p' path ho' hl' pid p hne hp)
    · exact h.exclusive pid pid' p p' path hp hp' hl hl'

theorem Inv.step (h : Inv databases s) (hs : Step databases s s') : Inv databases s' := by
  cases hs with
  | start hnew hdatabase hexclusive hlock =>
    refine h.update ?_ ?_ ?_
    · intro p hp
      cases hp
      exact hdatabase
    · intro p hp hmemory hblank
      cases hp
      rcases acquireInstanceLock_ok hlock with ⟨hnone, -⟩ | ⟨-, hl, -⟩
      · rw [hmemory, hblank] at hnone; cases hnone
      · exact hl
    · intro p path hpath hl pid p' _ hp'
      cases hpath
      rcases acquireInstanceLock_ok hlock with ⟨-, hnone⟩ | ⟨-, hsome, htry⟩
      · rw [hnone] at hl; cases hl
      · rw [hsome] at hl
        cases hl
        exact hexclusive _ htry pid p' hp'
  | @dispatch pid₀ p₀ hp₀ =>
    refine h.update ?_ ?_ ?_
    · intro p hp
      cases hp
      exact h.database pid₀ p₀ hp₀
    · intro p hp
      cases hp
      exact h.locked pid₀ p₀ hp₀
    · intro p path hpath hl pid p' hne hp' hl'
      cases hpath
      exact hne (h.exclusive pid pid₀ p' p₀ path hp' hp₀ hl' hl)
  | exit => exact h.update (by simp) (by simp) (by simp)

/-- **A lock is held by one process at a time.** -/
theorem Inv.run (h : Run (Step databases) idle s) : Inv databases s := Run.invariant Inv.step inv_idle h

/-! ## Two dispatchers on one database -/

/-- A lock that is not taken is acquired whatever is taken. -/
theorem acquire_beside {database : String} {lock held : Option String}
    (h : acquireInstanceLock (fun _ => .locked) database = .ok lock)
    (hne : ∀ path, lock = some path → held ≠ some path) :
    acquireInstanceLock (fun path => if held = some path then .wouldBlock else .locked) database = .ok lock := by
  rcases acquireInstanceLock_ok h with ⟨hnone, rfl⟩ | ⟨hsome, rfl, -⟩
  · rw [acquireInstanceLock, if_pos hnone]
  · simp only [acquireInstanceLock, hsome, Bool.false_eq_true, if_false, if_neg (hne _ rfl)]

/-- Two processes whose locks do not meet come to dispatch together. -/
theorem two_dispatch (databases : String → Prop) {v w : String} {lock lock' : Option String} (hv : databases v)
    (hw : databases w) (hlock : acquireInstanceLock (fun _ => .locked) v = .ok lock)
    (hlock' : acquireInstanceLock (fun _ => .locked) w = .ok lock')
    (hne : ∀ path, lock' = some path → lock ≠ some path) :
    ∃ s, Run (Step databases) idle s ∧ s 0 = some ⟨v, lock, true⟩ ∧ s 1 = some ⟨w, lock', true⟩ := by
  have hone : (1 : Nat) ≠ 0 := by decide
  obtain ⟨s₁, hs₁, h₁⟩ : ∃ s₁, s₁ = Function.update idle 0 (some ⟨v, lock, false⟩) ∧
      Run (Step databases) idle s₁ :=
    ⟨_, rfl, .single (.start rfl hv (fun _ _ _ _ h => by cases h) hlock)⟩
  obtain ⟨s₂, hs₂, h₂⟩ : ∃ s₂, s₂ = Function.update s₁ 1 (some ⟨w, lock', false⟩) ∧
      Run (Step databases) idle s₂ := by
    refine ⟨_, rfl, h₁.tail (.start ?_ hw (fun path hfree pid p hp hl => ?_) (acquire_beside hlock' hne))⟩
    · rw [hs₁, Function.update_of_ne hone]; rfl
    · rw [hs₁] at hp
      rcases update_eq_some hp with ⟨-, ho⟩ | ⟨-, hp⟩
      · cases ho
        rw [if_pos hl] at hfree
        cases hfree
      · cases hp
  have hzero : s₂ 0 = some ⟨v, lock, false⟩ := by
    rw [hs₂, Function.update_of_ne hone.symm, hs₁, Function.update_self]
  have h₃ := h₂.tail (.dispatch hzero)
  have hsecond : Function.update s₂ 0 (some ⟨v, lock, true⟩) 1 = some ⟨w, lock', false⟩ := by
    rw [Function.update_of_ne hone, hs₂, Function.update_self]
  refine ⟨_, h₃.tail (.dispatch hsecond), ?_, ?_⟩
  · rw [Function.update_of_ne hone.symm, Function.update_self]
  · rw [Function.update_self]

theorem lockPath_inj {v w : String} : lockPath v = lockPath w ↔ v = w := by
  rw [lockPath, lockPath, String.append_left_inj]

/-- What is acquired where every lock is free. -/
theorem acquire_free (database : String) : ∃ lock, acquireInstanceLock (fun _ => .locked) database = .ok lock := by
  simp only [acquireInstanceLock]
  split <;> exact ⟨_, rfl⟩

/-- Locks of two spellings, or of a spelling with `:memory:` in it, do not meet. -/
theorem locks_ne {v w : String} {lock lock' : Option String}
    (hlock : acquireInstanceLock (fun _ => .locked) v = .ok lock)
    (hlock' : acquireInstanceLock (fun _ => .locked) w = .ok lock')
    (h : ¬ (v = w ∧ Str.contains v ":memory:" = false)) : ∀ path, lock' = some path → lock ≠ some path := by
  intro path hp' hp
  rcases acquireInstanceLock_ok hlock with ⟨-, hl⟩ | ⟨hv, hl, -⟩
  · rw [hl] at hp; cases hp
  rcases acquireInstanceLock_ok hlock' with ⟨-, hl'⟩ | ⟨-, hl', -⟩
  · rw [hl'] at hp'; cases hp'
  rw [hl] at hp
  rw [hl', ← hp] at hp'
  refine h ⟨(lockPath_inj.1 (Option.some.inj hp')).symm, ?_⟩
  rw [Bool.or_eq_false_iff] at hv
  exact hv.1

end Instances

open Instances

/-- **The lock keeps a second instance away exactly from its own
spelling.** Of two values with the URL of one database on disk, the first
one accepted, at most one process dispatches at a time when they are the
same value and `:memory:` does not occur in it. -/
theorem one_instance_iff {onDisk : String → Prop} {v w : Config} (hv : v.validate = .ok ())
    (hurl : sqliteUrl v.queue.database = sqliteUrl w.queue.database)
    (hdisk : onDisk (sqliteUrl v.queue.database)) :
    AtMostOne onDisk (fun database => database = v.queue.database ∨ database = w.queue.database) ↔
      v.queue.database = w.queue.database ∧ Str.contains v.queue.database ":memory:" = false := by
  constructor
  · intro h
    by_contra hne
    obtain ⟨lock, hlock⟩ := acquire_free v.queue.database
    obtain ⟨lock', hlock'⟩ := acquire_free w.queue.database
    obtain ⟨s, hrun, h0, h1⟩ := two_dispatch
      (fun database => database = v.queue.database ∨ database = w.queue.database) (.inl rfl) (.inr rfl)
      hlock hlock' (locks_ne hlock hlock' hne)
    exact absurd (h s hrun 0 1 _ _ h0 h1 rfl rfl hurl hdisk) (by decide)
  · intro h s hrun pid pid' p p' hp hp' _ _ _ _
    obtain ⟨heq, hmemory⟩ := h
    have hinv := Inv.run hrun
    have hblank := (Config.validate_ok hv).1
    have hdatabase : ∀ pid p, s pid = some p → p.database = v.queue.database := by
      intro pid p hp
      rcases hinv.database pid p hp with h | h
      · exact h
      · rw [h, heq]
    have hlock : ∀ pid p, s pid = some p → p.lock = some (lockPath v.queue.database) := by
      intro pid p hp
      have := hinv.locked pid p hp
      rw [hdatabase pid p hp] at this
      exact this hmemory hblank
    exact hinv.exclusive pid pid' p p' _ hp hp' (hlock pid p hp) (hlock pid' p' hp')

/-- What is known of the driver here: this URL names a file. -/
def queueUrl (url : String) : Prop := url = "sqlite:queue.db"

theorem one_instance_example :
    AtMostOne queueUrl (fun database => database = "queue.db" ∨ database = "queue.db") :=
  have hv : (default : Config).validate = .ok () := by decide
  have hdisk : queueUrl (sqliteUrl "queue.db") := (show sqliteUrl "queue.db" = "sqlite:queue.db" by decide)
  (one_instance_iff (v := default) (w := default) hv rfl hdisk).2 ⟨rfl, by decide⟩

/-- The default database, spelled as a URL. -/
def urlConfig : Config := { (default : Config) with queue := ⟨"sqlite:queue.db"⟩ }

/-- Two spellings of one database, two dispatchers on it. -/
theorem two_spellings_dispatch :
    (default : Config).validate = .ok () ∧ urlConfig.validate = .ok () ∧
    sqliteUrl "queue.db" = "sqlite:queue.db" ∧ sqliteUrl "sqlite:queue.db" = "sqlite:queue.db" ∧
    ¬ AtMostOne queueUrl (fun database => database = "queue.db" ∨ database = "sqlite:queue.db") := by
  have hurl : sqliteUrl "queue.db" = "sqlite:queue.db" := by decide
  refine ⟨by decide, by decide, hurl, by decide, fun h => ?_⟩
  have hlock : acquireInstanceLock (fun _ => .locked) "queue.db" = .ok (some "queue.db.lock") := by decide
  have hlock' : acquireInstanceLock (fun _ => .locked) "sqlite:queue.db" =
      .ok (some "sqlite:queue.db.lock") := by decide
  obtain ⟨s, hrun, h0, h1⟩ := two_dispatch
    (fun database => database = "queue.db" ∨ database = "sqlite:queue.db") (.inl rfl) (.inr rfl)
    hlock hlock' (by decide)
  exact absurd (h s hrun 0 1 _ _ h0 h1 rfl rfl (by decide) hurl) (by decide)

end OxidRelay
