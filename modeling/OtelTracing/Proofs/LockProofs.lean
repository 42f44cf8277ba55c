import OtelTracing.Proofs.StepProofs

/-!
# Proofs: locks and waiting

Which locks a thread holds can be told from where it is, and so can whether the flusher may still be
asleep. No state is reached in which all threads that have not finished wait for each other.
-/

namespace OtelTracing

open ByteMem Locks

variable {pack : Proto.ExportTraceServiceRequest → Bytes} {σ σ' : Process} {t u : ThreadId}
  {pc pc' : Pc}

/-! ## Who holds the locks -/

structure Process.LockOk (σ : Process) : Prop where
  drain : Holds σ.drainLock Pc.holdsDrain σ.pcs
  registry : σ.registryLock.Holds Pc.holdsRead Pc.holdsWrite σ.pcs
  store : Holds σ.storeLock Pc.holdsStore σ.pcs

theorem lockOk_atRest (h : σ.AtRest) : σ.LockOk := by
  have hpc : ∀ t, σ.pcs t = .idle ∨ σ.pcs t = .flusherLock ∨ σ.pcs t = .exited := by
    intro t
    by_cases ht : t = σ.flusher
    · have hflusher := h.flusher
      rw [ht]
      by_cases hthread : σ.haveThread = true
      · rw [if_pos hthread] at hflusher
        exact Or.inr (Or.inl hflusher)
      · rw [if_neg hthread] at hflusher
        exact Or.inr (Or.inr hflusher)
    · exact Or.inl (h.idle t ht)
  have hnone : ∀ f : Pc → Bool, f .idle = false → f .flusherLock = false → f .exited = false →
      ∀ t, f (σ.pcs t) = false := by
    intro f h1 h2 h3 t
    rcases hpc t with hpc | hpc | hpc
    · rw [hpc, h1]
    · rw [hpc, h2]
    · rw [hpc, h3]
  refine ⟨?_, ⟨?_, ?_, ?_, ?_⟩, ?_⟩
  · intro t
    simp [h.drainLock, hnone Pc.holdsDrain rfl rfl rfl t]
  · intro t
    simp [h.registryLock, RwLock.free, hnone Pc.holdsWrite rfl rfl rfl t]
  · intro t
    simp [h.registryLock, RwLock.free, hnone Pc.holdsRead rfl rfl rfl t]
  · rw [h.registryLock]
    exact List.nodup_nil
  · intro _
    rw [h.registryLock]
    rfl
  · intro t
    simp [h.storeLock, hnone Pc.holdsStore rfl rfl rfl t]

/-- A move between places where the same locks are held. -/
structure Pc.SameLocks (pc pc' : Pc) : Prop where
  drain : pc'.holdsDrain = pc.holdsDrain
  write : pc'.holdsWrite = pc.holdsWrite
  read : pc'.holdsRead = pc.holdsRead
  store : pc'.holdsStore = pc.holdsStore

/-- A step that moves a thread between such places, and does not touch the locks. -/
theorem Process.LockOk.keep (h : σ.LockOk) (hpc : σ.pcs t = pc)
    (hpcs : σ'.pcs = Function.update σ.pcs t pc') (hdrain : σ'.drainLock = σ.drainLock)
    (hregistry : σ'.registryLock = σ.registryLock) (hstore : σ'.storeLock = σ.storeLock)
    (hsame : pc.SameLocks pc') : σ'.LockOk := by
  subst hpc
  refine ⟨?_, ?_, ?_⟩
  · rw [hdrain, hpcs]
    exact h.drain.keep hsame.drain
  · rw [hregistry, hpcs]
    exact h.registry.keep hsame.read hsame.write
  · rw [hstore, hpcs]
    exact h.store.keep hsame.store

theorem lockOk_call {c : ThreadCall} (h : σ.LockOk) (hidle : σ.pcs t = .idle)
    (hstep : callStep σ t c = .ok σ') : σ'.LockOk := by
  cases call_cases hstep with
  | refused => exact h
  | drop => exact ⟨h.drain, h.registry, h.store⟩
  | setRingCapacity => exact ⟨h.drain, h.registry, h.store⟩
  | register => exact h.keep hidle rfl rfl rfl rfl ⟨rfl, rfl, rfl, rfl⟩
  | finish => exact h.keep hidle rfl rfl rfl rfl ⟨rfl, rfl, rfl, rfl⟩
  | unregister => exact h.keep hidle rfl rfl rfl rfl ⟨rfl, rfl, rfl, rfl⟩
  | drain => exact h.keep hidle rfl rfl rfl rfl ⟨rfl, rfl, rfl, rfl⟩
  | close => exact h.keep hidle rfl rfl rfl rfl ⟨rfl, rfl, rfl, rfl⟩
  | detach => exact h.keep hidle rfl rfl rfl rfl ⟨rfl, rfl, rfl, rfl⟩

/-- Where `otel_drain` returns to, no lock is held. -/
theorem sameLocks_ret (k : Caller) : Pc.idle.SameLocks k.ret := by
  cases k with
  | user => exact ⟨rfl, rfl, rfl, rfl⟩
  | flusher => exact ⟨rfl, rfl, rfl, rfl⟩
  | close => exact ⟨rfl, rfl, rfl, rfl⟩

theorem lockOk_thread (h : σ.LockOk) (hstep : Stepped pack σ t σ') : σ'.LockOk := by
  have hdrain := h.drain
  have hregistry := h.registry
  have hstore := h.store
  cases hstep with
  -- the registry lock is taken or released
  | registerLock a hpc hcan =>
    exact ⟨hdrain.keep (by rw [hpc]; rfl), hregistry.lockWrite hcan rfl (by rw [hpc]; rfl),
      hstore.keep (by rw [hpc]; rfl)⟩
  | registerUnlock a hpc =>
    exact ⟨hdrain.keep (by rw [hpc]; rfl), hregistry.unlockWrite (by rw [hpc]; rfl) rfl (by rw [hpc]; rfl),
      hstore.keep (by rw [hpc]; rfl)⟩
  | unregisterWrlock a hpc hcan =>
    exact ⟨hdrain.keep (by rw [hpc]; rfl), hregistry.lockWrite hcan rfl (by rw [hpc]; rfl),
      hstore.keep (by rw [hpc]; rfl)⟩
  | unregisterWrunlock a hpc =>
    exact ⟨hdrain.keep (by rw [hpc]; rfl), hregistry.unlockWrite (by rw [hpc]; rfl) rfl (by rw [hpc]; rfl),
      hstore.keep (by rw [hpc]; rfl)⟩
  | drainRdlock k hpc hcan =>
    exact ⟨hdrain.keep (by rw [hpc]; rfl),
      hregistry.lockRead hcan (by rw [hpc]; rfl) rfl (by rw [hpc]; rfl),
      hstore.keep (by rw [hpc]; rfl)⟩
  | drainRdunlock k v hpc =>
    exact ⟨hdrain.keep (by rw [hpc]; rfl), hregistry.unlockRead rfl (by rw [hpc]; rfl),
      hstore.keep (by rw [hpc]; rfl)⟩
  -- the drain lock
  | unregisterLock a hpc hfree =>
    rw [hfree] at hdrain
    exact ⟨hdrain.acquire rfl, hregistry.keep (by rw [hpc]; rfl) (by rw [hpc]; rfl),
      hstore.keep (by rw [hpc]; rfl)⟩
  | unregisterUnlock a hpc =>
    exact ⟨hdrain.release (by rw [hpc]; rfl) rfl,
      hregistry.keep (by rw [hpc]; rfl) (by rw [hpc]; rfl), hstore.keep (by rw [hpc]; rfl)⟩
  | drainLock k hpc hfree =>
    rw [hfree] at hdrain
    exact ⟨hdrain.acquire rfl, hregistry.keep (by rw [hpc]; rfl) (by rw [hpc]; rfl),
      hstore.keep (by rw [hpc]; rfl)⟩
  | drainUnlock k v hpc =>
    have hret := sameLocks_ret k
    exact ⟨hdrain.release (by rw [hpc]; rfl) hret.drain,
      hregistry.keep (by rw [hpc]; exact hret.read) (by rw [hpc]; exact hret.write),
      hstore.keep (by rw [hpc]; exact hret.store)⟩
  -- the lock of the store
  | flusherLock hpc hfree =>
    rw [hfree] at hstore
    exact ⟨hdrain.keep (by rw [hpc]; rfl), hregistry.keep (by rw [hpc]; rfl) (by rw [hpc]; rfl),
      hstore.acquire rfl⟩
  | flusherRelock hpc hfree =>
    rw [hfree] at hstore
    exact ⟨hdrain.keep (by rw [hpc]; rfl), hregistry.keep (by rw [hpc]; rfl) (by rw [hpc]; rfl),
      hstore.acquire rfl⟩
  | closeLock hpc hfree =>
    rw [hfree] at hstore
    exact ⟨hdrain.keep (by rw [hpc]; rfl), hregistry.keep (by rw [hpc]; rfl) (by rw [hpc]; rfl),
      hstore.acquire rfl⟩
  | flusherWait hpc =>
    exact ⟨hdrain.keep (by rw [hpc]; rfl), hregistry.keep (by rw [hpc]; rfl) (by rw [hpc]; rfl),
      hstore.release (by rw [hpc]; rfl) rfl⟩
  | flusherUnlock hpc =>
    exact ⟨hdrain.keep (by rw [hpc]; rfl), hregistry.keep (by rw [hpc]; rfl) (by rw [hpc]; rfl),
      hstore.release (by rw [hpc]; rfl) rfl⟩
  | flusherLeave hpc =>
    exact ⟨hdrain.keep (by rw [hpc]; rfl), hregistry.keep (by rw [hpc]; rfl) (by rw [hpc]; rfl),
      hstore.release (by rw [hpc]; rfl) rfl⟩
  | closeUnlock hpc =>
    exact ⟨hdrain.keep (by rw [hpc]; rfl), hregistry.keep (by rw [hpc]; rfl) (by rw [hpc]; rfl),
      hstore.release (by rw [hpc]; rfl) rfl⟩
  -- no lock
  | drainSkip k hpc =>
    have hret := sameLocks_ret k
    exact h.keep hpc rfl rfl rfl rfl
      ⟨hret.drain, hret.write, hret.read, hret.store⟩
  | detachEnabled close hpc =>
    cases close with
    | false => exact h.keep hpc rfl rfl rfl rfl ⟨rfl, rfl, rfl, rfl⟩
    | true => exact h.keep hpc rfl rfl rfl rfl ⟨rfl, rfl, rfl, rfl⟩
  | _ =>
    refine h.keep (by assumption) rfl rfl rfl rfl ?_
    exact ⟨rfl, rfl, rfl, rfl⟩

theorem lockOk_step {a : Act} (h : σ.LockOk) (he : a.Possible σ)
    (hstep : processStep pack σ a = .ok σ') : σ'.LockOk := by
  cases a with
  | call t c => exact lockOk_call h he.1 hstep
  | step t => exact lockOk_thread h (step_cases he hstep)
  | timer =>
    cases hstep
    exact h.keep he rfl rfl rfl rfl ⟨rfl, rfl, rfl, rfl⟩

/-! ## Stopping the flusher -/

/-- The place is in a call that the flusher makes, or in its loop. -/
def Pc.ofFlusher : Pc → Bool
  | .flusherLock | .flusherTest | .flusherWait | .flusherAsleep | .flusherRelock | .flusherUnlock
  | .flusherLeave | .exited => true
  | .drainEnabled k | .drainLock k | .drainRdlock k | .drainPass k .. | .drainRdunlock k _
  | .drainUnlock k _ => k = .flusher
  | _ => false

/-- The place is in `otel_sqlite_close` or in a call that it makes. -/
def Pc.ofClose : Pc → Bool
  | .closeTest | .closeLock | .closeClear | .closeSignal | .closeUnlock | .closeJoin
  | .closeFinalize => true
  | .drainEnabled k | .drainLock k | .drainRdlock k | .drainPass k .. | .drainRdunlock k _
  | .drainUnlock k _ => k = .close
  | .detachSink close | .detachPresent close | .detachEnabled close => close
  | _ => false

/-- `otel_sqlite_close` was called, and has not cleared `S.running` yet. -/
def Pc.beforeClear : Pc → Bool
  | .closeTest | .closeLock | .closeClear => true
  | _ => false

/-- Only the flusher is in its program, and only the closer, once it was called, in
`otel_sqlite_close`. -/
structure Process.RolesOk (σ : Process) : Prop where
  flusher : ∀ t, (σ.pcs t).ofFlusher = true ↔ t = σ.flusher
  closer : ∀ t, (σ.pcs t).ofClose = true → t = σ.closer ∧ σ.closeCalled = true
  distinct : σ.closer ≠ σ.flusher

/-- The flusher goes to sleep only while `S.running` is set, and it is signalled after it was cleared;
`otel_sqlite_close` joins it. -/
structure Process.StopOk (σ : Process) : Prop where
  thread : σ.running = true → σ.haveThread = true
  joined : σ.haveThread = false → σ.pcs σ.flusher = .exited
  clearing : σ.running = true → σ.closeCalled = true → (σ.pcs σ.closer).beforeClear = true
  wait : σ.pcs σ.flusher = .flusherWait → σ.running = true
  asleep : σ.running = false → σ.pcs σ.flusher = .flusherAsleep →
    σ.signaled = true ∨ σ.pcs σ.closer = .closeSignal

theorem atRest_flusher (h : σ.AtRest) : σ.pcs σ.flusher = .flusherLock ∨ σ.pcs σ.flusher = .exited := by
  have hflusher := h.flusher
  by_cases hthread : σ.haveThread = true
  · rw [if_pos hthread] at hflusher
    exact Or.inl hflusher
  · rw [if_neg hthread] at hflusher
    exact Or.inr hflusher

theorem rolesOk_atRest (h : σ.AtRest) : σ.RolesOk := by
  refine ⟨?_, ?_, h.closer⟩
  · intro t
    by_cases ht : t = σ.flusher
    · subst ht
      rcases atRest_flusher h with hpc | hpc
      · simp [hpc, Pc.ofFlusher]
      · simp [hpc, Pc.ofFlusher]
    · simp [h.idle t ht, Pc.ofFlusher, ht]
  · intro t hclose
    by_cases ht : t = σ.flusher
    · subst ht
      rcases atRest_flusher h with hpc | hpc
      · simp [hpc, Pc.ofClose] at hclose
      · simp [hpc, Pc.ofClose] at hclose
    · simp [h.idle t ht, Pc.ofClose] at hclose

theorem stopOk_atRest (h : σ.AtRest) : σ.StopOk := by
  refine ⟨?_, ?_, ?_, ?_, ?_⟩
  · intro hrunning
    rw [← h.running]
    exact hrunning
  · intro hthread
    have hflusher := h.flusher
    simpa [hthread] using hflusher
  · intro _ hcalled
    rw [h.closeCalled] at hcalled
    cases hcalled
  · intro hwait
    rcases atRest_flusher h with hpc | hpc
    · rw [hpc] at hwait
      cases hwait
    · rw [hpc] at hwait
      cases hwait
  · intro _ hasleep
    rcases atRest_flusher h with hpc | hpc
    · rw [hpc] at hasleep
      cases hasleep
    · rw [hpc] at hasleep
      cases hasleep

/-! ### Roles -/

theorem Process.RolesOk.keep (h : σ.RolesOk) (hpc : σ.pcs t = pc)
    (hpcs : σ'.pcs = Function.update σ.pcs t pc') (hflusher : σ'.flusher = σ.flusher)
    (hcloser : σ'.closer = σ.closer) (hcalled : σ.closeCalled = true → σ'.closeCalled = true)
    (hf : pc'.ofFlusher = pc.ofFlusher)
    (hc : pc'.ofClose = true → pc.ofClose = true ∨ t = σ.closer ∧ σ'.closeCalled = true) :
    σ'.RolesOk := by
  subst hpc
  refine ⟨?_, ?_, ?_⟩
  · intro u
    rw [hpcs, update_same hf, hflusher]
    exact h.flusher u
  · intro u hclose
    have hold : (σ.pcs u).ofClose = true → u = σ'.closer ∧ σ'.closeCalled = true := by
      intro hclose
      obtain ⟨hu, hcall⟩ := h.closer u hclose
      exact ⟨hu.trans hcloser.symm, hcalled hcall⟩
    by_cases hu : u = t
    · subst hu
      rw [hpcs, Function.update_self] at hclose
      rcases hc hclose with hclose | ⟨hu, hcall⟩
      · exact hold hclose
      · exact ⟨hu.trans hcloser.symm, hcall⟩
    · rw [hpcs, Function.update_of_ne hu] at hclose
      exact hold hclose
  · rw [hcloser, hflusher]
    exact h.distinct

theorem rolesOk_step {a : Act} (h : σ.RolesOk) (he : a.Possible σ)
    (hstep : processStep pack σ a = .ok σ') : σ'.RolesOk := by
  cases a with
  | timer =>
    cases hstep
    exact h.keep he rfl rfl rfl id rfl nofun
  | call t c =>
    obtain ⟨hidle, hpossible⟩ := he
    cases call_cases hstep with
    | refused => exact h
    | drop => exact ⟨h.flusher, h.closer, h.distinct⟩
    | setRingCapacity => exact ⟨h.flusher, h.closer, h.distinct⟩
    | close => exact h.keep hidle rfl rfl rfl (fun _ => rfl) rfl fun _ => Or.inr ⟨hpossible.1, rfl⟩
    | _ => exact h.keep hidle rfl rfl rfl id rfl nofun
  | step t =>
    cases step_cases he hstep with
    | drainSkip k hpc =>
      refine h.keep hpc rfl rfl rfl id ?_ ?_
      · cases k <;> rfl
      · cases k <;> simp [Caller.ret, Pc.ofClose]
    | drainUnlock k v hpc =>
      refine h.keep hpc rfl rfl rfl id ?_ ?_
      · cases k <;> rfl
      · cases k <;> simp [Caller.ret, Pc.ofClose]
    | detachEnabled close hpc =>
      refine h.keep hpc rfl rfl rfl id ?_ ?_
      · cases close <;> rfl
      · cases close <;> simp [Pc.ofClose]
    | closeFinalize hpc => exact h.keep hpc rfl rfl rfl id rfl nofun
    | _ =>
      refine h.keep (by assumption) rfl rfl rfl id ?_ ?_
      · rfl
      · exact Or.inl

/-! ### Stopping -/

/-- A move that has nothing to do with stopping the flusher. -/
structure Pc.Unrelated (pc pc' : Pc) : Prop where
  before : pc.beforeClear = true → pc'.beforeClear = true
  exited : pc ≠ .exited
  signal : pc ≠ .closeSignal
  wait : pc' ≠ .flusherWait
  asleep : pc' ≠ .flusherAsleep

theorem Process.StopOk.keep (h : σ.StopOk) (hpc : σ.pcs t = pc)
    (hpcs : σ'.pcs = Function.update σ.pcs t pc') (hrunning : σ'.running = σ.running)
    (hthread : σ'.haveThread = σ.haveThread) (hsignaled : σ'.signaled = σ.signaled)
    (hcalled : σ'.closeCalled = σ.closeCalled) (hflusher : σ'.flusher = σ.flusher)
    (hcloser : σ'.closer = σ.closer) (hmove : pc.Unrelated pc') : σ'.StopOk := by
  subst hpc
  have hother : ∀ {u : ThreadId} {q : Pc}, pc' ≠ q → σ'.pcs u = q → σ.pcs u = q := by
    intro u q hne hq
    rw [hpcs] at hq
    by_cases hu : u = t
    · subst hu
      rw [Function.update_self] at hq
      exact absurd hq hne
    · rwa [Function.update_of_ne hu] at hq
  have hstays : ∀ {u : ThreadId} {q : Pc}, σ.pcs t ≠ q → σ.pcs u = q → σ'.pcs u = q := by
    intro u q hne hq
    have hu : u ≠ t := fun heq => hne (heq ▸ hq)
    rwa [hpcs, Function.update_of_ne hu]
  refine ⟨?_, ?_, ?_, ?_, ?_⟩
  · rw [hrunning, hthread]
    exact h.thread
  · rw [hthread, hflusher]
    intro hnone
    exact hstays hmove.exited (h.joined hnone)
  · rw [hrunning, hcalled, hcloser]
    intro hrun hcall
    have hbefore := h.clearing hrun hcall
    by_cases hu : σ.closer = t
    · rw [hu] at hbefore ⊢
      rw [hpcs, Function.update_self]
      exact hmove.before hbefore
    · rwa [hpcs, Function.update_of_ne hu]
  · rw [hrunning, hflusher]
    intro hwait
    exact h.wait (hother hmove.wait hwait)
  · rw [hrunning, hflusher, hsignaled, hcloser]
    intro hstopped hasleep
    rcases h.asleep hstopped (hother hmove.asleep hasleep) with hsig | hsig
    · exact Or.inl hsig
    · exact Or.inr (hstays hmove.signal hsig)

/-- A move of the flusher in its own loop. -/
theorem Process.RolesOk.is_flusher (h : σ.RolesOk) (hpc : σ.pcs t = pc) (hf : pc.ofFlusher = true) :
    t = σ.flusher :=
  (h.flusher t).mp (hpc ▸ hf)

theorem Process.RolesOk.is_closer (h : σ.RolesOk) (hpc : σ.pcs t = pc) (hc : pc.ofClose = true) :
    t = σ.closer ∧ σ.closeCalled = true :=
  h.closer t (hpc ▸ hc)

/-- A step of the flusher that does not change the flags. -/
theorem Process.StopOk.flusher_move (h : σ.StopOk) (hroles : σ.RolesOk) (hpc : σ.pcs σ.flusher = pc)
    (hpcs : σ'.pcs = Function.update σ.pcs σ.flusher pc') (hrunning : σ'.running = σ.running)
    (hthread : σ'.haveThread = σ.haveThread) (hcalled : σ'.closeCalled = σ.closeCalled)
    (hflusher : σ'.flusher = σ.flusher) (hcloser : σ'.closer = σ.closer) (hexited : pc ≠ .exited)
    (hwait : pc' = .flusherWait → σ.running = true)
    (hasleep : pc' = .flusherAsleep → σ.running = true) : σ'.StopOk := by
  refine ⟨?_, ?_, ?_, ?_, ?_⟩
  · rw [hrunning, hthread]
    exact h.thread
  · rw [hthread]
    intro hnone
    exact absurd (hpc ▸ h.joined hnone) hexited
  · rw [hrunning, hcalled, hcloser, hpcs, Function.update_of_ne hroles.distinct]
    exact h.clearing
  · rw [hrunning, hflusher, hpcs, Function.update_self]
    exact hwait
  · rw [hrunning, hflusher, hpcs, Function.update_self]
    intro hstopped hpc'
    rw [hasleep hpc'] at hstopped
    cases hstopped

/-- A step of the closer. -/
theorem Process.RolesOk.closer_move (hroles : σ.RolesOk)
    (hpcs : σ'.pcs = Function.update σ.pcs σ.closer pc') (hflusher : σ'.flusher = σ.flusher)
    (hcloser : σ'.closer = σ.closer) (hthread : σ'.running = true → σ'.haveThread = true)
    (hjoined : σ'.haveThread = false → σ.pcs σ.flusher = .exited)
    (hclearing : σ'.running = true → pc'.beforeClear = true)
    (hwait : σ.pcs σ.flusher = .flusherWait → σ'.running = true)
    (hasleep : σ'.running = false → σ.pcs σ.flusher = .flusherAsleep →
      σ'.signaled = true ∨ pc' = .closeSignal) : σ'.StopOk := by
  have hother : σ'.pcs σ'.flusher = σ.pcs σ.flusher := by
    rw [hflusher, hpcs, Function.update_of_ne (Ne.symm hroles.distinct)]
  have hself : σ'.pcs σ'.closer = pc' := by
    rw [hcloser, hpcs, Function.update_self]
  refine ⟨hthread, ?_, ?_, ?_, ?_⟩
  · rw [hother]
    exact hjoined
  · intro hrunning _
    rw [hself]
    exact hclearing hrunning
  · rw [hother]
    exact hwait
  · rw [hother, hself]
    exact hasleep

/-- From the moment the closer has cleared `S.running` it stays cleared. -/
theorem Process.StopOk.stopped (h : σ.StopOk) (hcalled : σ.closeCalled = true)
    (hafter : (σ.pcs σ.closer).beforeClear = false) : σ.running = false := by
  by_contra hrunning
  rw [Bool.not_eq_false] at hrunning
  rw [h.clearing hrunning hcalled] at hafter
  cases hafter

theorem stopOk_thread (h : σ.StopOk) (hroles : σ.RolesOk) (hlocks : σ.LockOk)
    (hstep : Stepped pack σ t σ') : σ'.StopOk := by
  cases hstep with
  | flusherGoOn hpc hrunning =>
    obtain rfl := hroles.is_flusher hpc rfl
    exact h.flusher_move hroles hpc rfl rfl rfl rfl rfl rfl nofun (fun _ => hrunning) nofun
  | flusherWait hpc =>
    obtain rfl := hroles.is_flusher hpc rfl
    exact h.flusher_move hroles hpc rfl rfl rfl rfl rfl rfl nofun nofun (fun _ => h.wait hpc)
  | closeJoining hpc hthread =>
    exact h.keep hpc rfl rfl rfl rfl rfl rfl rfl ⟨fun _ => rfl, nofun, nofun, nofun, nofun⟩
  | closeAlone hpc hthread =>
    obtain ⟨rfl, hcalled⟩ := hroles.is_closer hpc rfl
    have hexited := h.joined hthread
    have hstopped : σ.running = false := by
      by_contra hrunning
      rw [h.thread (by simpa using hrunning)] at hthread
      cases hthread
    refine hroles.closer_move rfl rfl rfl h.thread h.joined ?_ h.wait ?_
    · intro hrunning
      rw [show σ.running = true from hrunning] at hstopped
      cases hstopped
    · intro _ hasleep
      rw [hexited] at hasleep
      cases hasleep
  | closeClear hpc =>
    obtain ⟨rfl, hcalled⟩ := hroles.is_closer hpc rfl
    refine hroles.closer_move rfl rfl rfl nofun h.joined nofun ?_ (fun _ _ => Or.inr rfl)
    intro hwait
    -- the flusher holds the lock from its test until it sleeps
    have hsame := hlocks.store.unique (t := σ.closer) (by rw [hpc]; rfl) (by rw [hwait]; rfl)
    exact absurd hsame hroles.distinct
  | closeSignal signaled hpc hwake =>
    obtain ⟨rfl, hcalled⟩ := hroles.is_closer hpc rfl
    have hstopped := h.stopped hcalled (by rw [hpc]; rfl)
    refine hroles.closer_move rfl rfl rfl h.thread h.joined ?_ h.wait fun _ hasleep =>
      Or.inl (hwake hasleep)
    intro hrunning
    rw [show σ.running = true from hrunning] at hstopped
    cases hstopped
  | closeJoin hpc hexited =>
    obtain ⟨rfl, hcalled⟩ := hroles.is_closer hpc rfl
    have hstopped := h.stopped hcalled (by rw [hpc]; rfl)
    refine hroles.closer_move rfl rfl rfl ?_ (fun _ => hexited) ?_ h.wait ?_
    · intro hrunning
      rw [show σ.running = true from hrunning] at hstopped
      cases hstopped
    · intro hrunning
      rw [show σ.running = true from hrunning] at hstopped
      cases hstopped
    · intro _ hasleep
      rw [hexited] at hasleep
      cases hasleep
  | drainUnlock k v hpc =>
    cases k with
    | user => exact h.keep hpc rfl rfl rfl rfl rfl rfl rfl ⟨nofun, nofun, nofun, nofun, nofun⟩
    | flusher => exact h.keep hpc rfl rfl rfl rfl rfl rfl rfl ⟨nofun, nofun, nofun, nofun, nofun⟩
    | close => exact h.keep hpc rfl rfl rfl rfl rfl rfl rfl ⟨nofun, nofun, nofun, nofun, nofun⟩
  | drainSkip k hpc =>
    cases k with
    | user => exact h.keep hpc rfl rfl rfl rfl rfl rfl rfl ⟨nofun, nofun, nofun, nofun, nofun⟩
    | flusher => exact h.keep hpc rfl rfl rfl rfl rfl rfl rfl ⟨nofun, nofun, nofun, nofun, nofun⟩
    | close => exact h.keep hpc rfl rfl rfl rfl rfl rfl rfl ⟨nofun, nofun, nofun, nofun, nofun⟩
  | detachEnabled close hpc =>
    cases close with
    | false => exact h.keep hpc rfl rfl rfl rfl rfl rfl rfl ⟨nofun, nofun, nofun, nofun, nofun⟩
    | true => exact h.keep hpc rfl rfl rfl rfl rfl rfl rfl ⟨nofun, nofun, nofun, nofun, nofun⟩
  | _ =>
    refine h.keep (by assumption) rfl rfl rfl rfl rfl rfl rfl ?_
    refine ⟨?_, nofun, nofun, nofun, nofun⟩
    exact id

theorem stopOk_step {a : Act} (h : σ.StopOk) (hroles : σ.RolesOk) (hlocks : σ.LockOk)
    (he : a.Possible σ) (hstep : processStep pack σ a = .ok σ') : σ'.StopOk := by
  cases a with
  | timer =>
    cases hstep
    exact h.flusher_move hroles he rfl rfl rfl rfl rfl rfl nofun nofun nofun
  | call t c =>
    obtain ⟨hidle, hpossible⟩ := he
    cases call_cases hstep with
    | refused => exact h
    | drop => exact ⟨h.thread, h.joined, h.clearing, h.wait, h.asleep⟩
    | setRingCapacity => exact ⟨h.thread, h.joined, h.clearing, h.wait, h.asleep⟩
    | close =>
      obtain ⟨rfl, -⟩ := hpossible
      refine hroles.closer_move rfl rfl rfl h.thread h.joined (fun _ => rfl) h.wait ?_
      intro hstopped hasleep
      rcases h.asleep hstopped hasleep with hsig | hsig
      · exact Or.inl hsig
      · rw [hidle] at hsig
        cases hsig
    | _ => exact h.keep hidle rfl rfl rfl rfl rfl rfl rfl ⟨nofun, nofun, nofun, nofun, nofun⟩
  | step t => exact stopOk_thread h hroles hlocks (step_cases he hstep)

/-! ## Waiting -/

theorem ready_holdsStore (h : (σ.pcs t).holdsStore = true) : σ.Ready t := by
  unfold Process.Ready
  cases hpc : σ.pcs t <;> simp_all [Pc.holdsStore]

theorem ready_holdsWrite (h : (σ.pcs t).holdsWrite = true) : σ.Ready t := by
  unfold Process.Ready
  cases hpc : σ.pcs t <;> simp_all [Pc.holdsWrite]

theorem ready_holdsRead (h : (σ.pcs t).holdsRead = true) : σ.Ready t := by
  unfold Process.Ready
  cases hpc : σ.pcs t <;> simp_all [Pc.holdsRead]

/-- A thread that is in the program of one of the locks is not through with it. -/
theorem unfinished_ready (h : σ.Ready t) : σ.Unfinished t := by
  refine Or.inl ⟨?_, ?_⟩
  · intro hpc
    simp [Process.Ready, hpc] at h
  · intro hpc
    simp [Process.Ready, hpc] at h

theorem store_progress (h : σ.LockOk) (htaken : σ.storeLock ≠ none) : ∃ u, σ.Ready u := by
  obtain ⟨u, -, hu⟩ := h.store.holder htaken
  exact ⟨u, ready_holdsStore hu⟩

theorem read_progress (h : σ.LockOk) (htaken : ¬ σ.registryLock.canRead) : ∃ u, σ.Ready u := by
  obtain ⟨u, -, hu⟩ := h.registry.writer.holder htaken
  exact ⟨u, ready_holdsWrite hu⟩

theorem write_progress (h : σ.LockOk) (htaken : ¬ σ.registryLock.canWrite) : ∃ u, σ.Ready u := by
  by_cases hread : σ.registryLock.canRead
  · have hreaders : σ.registryLock.readers ≠ [] := fun hnil => htaken ⟨hread, hnil⟩
    obtain ⟨u, hu⟩ := List.exists_mem_of_ne_nil _ hreaders
    exact ⟨u, ready_holdsRead ((h.registry.readers u).mp hu)⟩
  · exact read_progress h hread

/-- The thread that holds the drain lock waits for the registry lock at most. -/
theorem drain_progress (h : σ.LockOk) (htaken : σ.drainLock ≠ none) : ∃ u, σ.Ready u := by
  obtain ⟨u, -, hu⟩ := h.drain.holder htaken
  by_cases hready : σ.Ready u
  · exact ⟨u, hready⟩
  · cases hpc : σ.pcs u with
    | unregisterWrlock a =>
      simp only [Process.Ready, hpc] at hready
      exact write_progress h hready
    | drainRdlock k =>
      simp only [Process.Ready, hpc] at hready
      exact read_progress h hready
    | _ => simp_all [Process.Ready, Pc.holdsDrain]

/-- A thread that is in a call waits for a lock at most, unless it waits for the flusher or to be
signalled. -/
theorem thread_progress (h : σ.LockOk) (hidle : σ.pcs t ≠ .idle) (hexited : σ.pcs t ≠ .exited)
    (hasleep : σ.pcs t ≠ .flusherAsleep) (hjoin : σ.pcs t ≠ .closeJoin) : ∃ u, σ.Ready u := by
  by_cases hready : σ.Ready t
  · exact ⟨t, hready⟩
  · unfold Process.Ready at hready
    cases hpc : σ.pcs t with
    | idle => exact absurd hpc hidle
    | exited => exact absurd hpc hexited
    | flusherAsleep => exact absurd hpc hasleep
    | closeJoin => exact absurd hpc hjoin
    | registerLock a =>
      simp only [hpc] at hready
      exact write_progress h hready
    | unregisterWrlock a =>
      simp only [hpc] at hready
      exact write_progress h hready
    | drainRdlock k =>
      simp only [hpc] at hready
      exact read_progress h hready
    | unregisterLock a =>
      simp only [hpc] at hready
      exact drain_progress h hready
    | drainLock k =>
      simp only [hpc] at hready
      exact drain_progress h hready
    | flusherLock =>
      simp only [hpc] at hready
      exact store_progress h hready
    | flusherRelock =>
      simp only [hpc] at hready
      exact store_progress h hready
    | closeLock =>
      simp only [hpc] at hready
      exact store_progress h hready
    | _ => simp [hpc] at hready

/-- Some thread takes a step, or the closer calls `otel_sqlite_close`. -/
def Process.Progress (σ : Process) : Prop :=
  (∃ u, σ.Ready u) ∨ (σ.pcs σ.closer = .idle ∧ σ.closeCalled = false)

/-- The closer, as long as it does not wait for the flusher. -/
theorem closer_progress (hlocks : σ.LockOk) (hroles : σ.RolesOk)
    (hopen : σ.pcs σ.closer = .idle → σ.closeCalled = false) (hjoin : σ.pcs σ.closer ≠ .closeJoin) :
    σ.Progress := by
  by_cases hidle : σ.pcs σ.closer = .idle
  · exact Or.inr ⟨hidle, hopen hidle⟩
  · have hother : (σ.pcs σ.closer).ofFlusher ≠ true := fun hf =>
      hroles.distinct ((hroles.flusher _).mp hf)
    refine Or.inl (thread_progress hlocks hidle ?_ ?_ hjoin)
    · intro hpc
      exact hother (by rw [hpc]; rfl)
    · intro hpc
      exact hother (by rw [hpc]; rfl)

/-- The flusher in its sleep: it was signalled, or the closer has still to do it. -/
theorem asleep_progress (hlocks : σ.LockOk) (hroles : σ.RolesOk) (hstop : σ.StopOk)
    (hasleep : σ.pcs σ.flusher = .flusherAsleep) : σ.Progress := by
  cases hrunning : σ.running with
  | true =>
    cases hcalled : σ.closeCalled with
    | true =>
      have hbefore := hstop.clearing hrunning hcalled
      refine closer_progress hlocks hroles ?_ ?_
      · intro hidle
        rw [hidle] at hbefore
        cases hbefore
      · intro hjoin
        rw [hjoin] at hbefore
        cases hbefore
    | false =>
      refine closer_progress hlocks hroles (fun _ => hcalled) ?_
      intro hjoin
      have hcalled' := (hroles.is_closer hjoin rfl).2
      rw [hcalled] at hcalled'
      cases hcalled'
  | false =>
    rcases hstop.asleep hrunning hasleep with hsignaled | hsignal
    · refine Or.inl ⟨σ.flusher, ?_⟩
      simpa [Process.Ready, hasleep] using hsignaled
    · refine Or.inl ⟨σ.closer, ?_⟩
      simp [Process.Ready, hsignal]

/-- The closer at the join: the flusher is about to exit. -/
theorem join_progress (hlocks : σ.LockOk) (hroles : σ.RolesOk) (hstop : σ.StopOk)
    (hjoin : σ.pcs σ.closer = .closeJoin) : σ.Progress := by
  by_cases hexited : σ.pcs σ.flusher = .exited
  · refine Or.inl ⟨σ.closer, ?_⟩
    simpa [Process.Ready, hjoin] using hexited
  · by_cases hasleep : σ.pcs σ.flusher = .flusherAsleep
    · exact asleep_progress hlocks hroles hstop hasleep
    · have hflusher : (σ.pcs σ.flusher).ofFlusher = true := (hroles.flusher _).mpr rfl
      refine Or.inl (thread_progress hlocks ?_ hexited hasleep ?_)
      · intro hpc
        rw [hpc] at hflusher
        cases hflusher
      · intro hpc
        rw [hpc] at hflusher
        cases hflusher

theorem unfinished_progress (hlocks : σ.LockOk) (hroles : σ.RolesOk) (hstop : σ.StopOk)
    (h : σ.Unfinished t) : σ.Progress := by
  rcases h with ⟨hidle, hexited⟩ | ⟨rfl, hcalled⟩
  · by_cases hasleep : σ.pcs t = .flusherAsleep
    · obtain rfl := hroles.is_flusher hasleep rfl
      exact asleep_progress hlocks hroles hstop hasleep
    · by_cases hjoin : σ.pcs t = .closeJoin
      · obtain ⟨rfl, -⟩ := hroles.is_closer hjoin rfl
        exact join_progress hlocks hroles hstop hjoin
      · exact Or.inl (thread_progress hlocks hidle hexited hasleep hjoin)
  · refine closer_progress hlocks hroles (fun _ => hcalled) ?_
    intro hjoin
    have hcalled' := (hroles.is_closer hjoin rfl).2
    rw [hcalled] at hcalled'
    cases hcalled'

/-! ## The main results -/

/-- What is known of the locks and of the flusher in every state that the process reaches. -/
structure Process.ControlOk (σ : Process) : Prop where
  locks : σ.LockOk
  roles : σ.RolesOk
  stop : σ.StopOk

theorem controlOk_atRest (h : σ.AtRest) : σ.ControlOk :=
  ⟨lockOk_atRest h, rolesOk_atRest h, stopOk_atRest h⟩

theorem controlOk_step {a : Act} (h : σ.ControlOk) (he : a.Possible σ)
    (hstep : processStep pack σ a = .ok σ') : σ'.ControlOk :=
  ⟨lockOk_step h.locks he hstep, rolesOk_step h.roles he hstep,
    stopOk_step h.stop h.roles h.locks he hstep⟩

theorem controlOk_run {acts : List Act} {σ₀ : Process} (h0 : σ₀.AtRest)
    (h : (processMachine pack).Run σ₀ acts σ) : σ.ControlOk :=
  h.invariant (controlOk_atRest h0) fun _ _ _ _ hi he hstep => controlOk_step hi he hstep

/-- As long as a thread has not finished, some thread that has not finished can take a step, and not
by waiting for the timer. -/
theorem deadlock_free (pack : Proto.ExportTraceServiceRequest → Bytes) (σ₀ σ : Process)
    (acts : List Act) (h0 : σ₀.AtRest) (h : (processMachine pack).Run σ₀ acts σ)
    (hunfinished : ∃ t, σ.Unfinished t) :
    ∃ t a, σ.Unfinished t ∧ a.isBy t ∧ (processMachine pack).enabled σ a := by
  obtain ⟨t, ht⟩ := hunfinished
  obtain ⟨hlocks, hroles, hstop⟩ := controlOk_run h0 h
  rcases unfinished_progress hlocks hroles hstop ht with ⟨u, hu⟩ | ⟨hidle, hcalled⟩
  · exact ⟨u, .step u, unfinished_ready hu, rfl, hu⟩
  · exact ⟨σ.closer, .call σ.closer .close, Or.inr ⟨rfl, hcalled⟩, rfl, hidle, rfl, hcalled⟩

theorem start_atRest (t : Tracer) (haveThread : Bool) {flusher closer : ThreadId}
    (hne : closer ≠ flusher) : (Process.start t haveThread flusher closer).AtRest where
  idle _ hu := if_neg hu
  flusher := if_pos rfl
  drainLock := rfl
  registryLock := rfl
  storeLock := rfl
  running := rfl
  closer := hne
  closeCalled := rfl
  detached := rfl
  finalized := rfl

/-- The flusher is asleep, and the closer has begun. -/
theorem deadlock_free_sample : ∃ σ : Process,
    σ.pcs 0 = .flusherAsleep ∧ σ.pcs 1 = .closeTest ∧
      ∃ t a, σ.Unfinished t ∧ a.isBy t ∧ (processMachine fun _ => []).enabled σ a := by
  have hrun : ∃ σ : Process, σ.pcs 0 = .flusherAsleep ∧ σ.pcs 1 = .closeTest ∧
      (processMachine fun _ => []).Run (Process.start Tracer.boot true 0 1)
        [.step 0, .step 0, .step 0, .call 1 .close] σ :=
    ⟨_, rfl, rfl, .cons rfl rfl (.cons trivial rfl (.cons trivial rfl
      (.cons ⟨rfl, rfl, rfl⟩ rfl .nil)))⟩
  obtain ⟨σ, h0, h1, h⟩ := hrun
  refine ⟨σ, h0, h1, deadlock_free _ _ σ _ (start_atRest Tracer.boot true (by decide)) h ⟨0, ?_⟩⟩
  exact Or.inl ⟨by rw [h0]; nofun, by rw [h0]; nofun⟩

end OtelTracing
