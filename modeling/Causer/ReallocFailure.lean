import Causer.ReallocContents

/-!
# Reallocations that fail

When `CUSTOM_MALLOC` returns `NULL`, `CUSTOM_REALLOC` goes on where it would
after the bytes have been moved: it frees the old object, and then returns
`NULL`.  The object outlives that call only where freeing it does nothing: in
the temporary buffer, or with its head word gone, when the check at free returns
`NULL` to be freed.
-/

namespace Causer

open ByteMemory WordArithmetic ObjectGuard

section

variable {arena : Arena} {state : HeapState} {object : Object} {sz : Nat}
  {answer : Block}

/-- `CUSTOM_MALLOC` returns `NULL` for half the address space and more only,
and then has done nothing. -/
theorem customMalloc_eq_null
    {watch : Option Watch}
    {after : Heap}
    (sound : state.heap.Sound arena)
    (fails : customMalloc arena sz answer watch state.heap =
      some (0, after)) :
    2 ^ 63 ≤ sz ∧ after = state.heap := by
  rw [customMalloc, Nat.shiftRight_eq_div_pow] at fails
  split_ifs at fails with large
  · rw [Option.some.injEq, Prod.mk.injEq] at fails
    exact ⟨by omega, fails.2.symm⟩
  · exfalso
    obtain ⟨⟨base, stocked⟩, obtained, placed⟩ :=
      Option.map_eq_some_iff.mp fails
    have unrecorded : recordedCallstack 0 none < 2 ^ 63 := by decide
    obtain ⟨-, noWrap, -⟩ := xxmalloc_stocked sound
      (show sz < 2 ^ 63 by omega) unrecorded obtained
    have start : getStartPtr base = 0 := congrArg Prod.fst placed
    rw [getStartPtr_eq (by omega)] at start
    omega

/-- The object is still allocated, with its guard, its bytes and its tail word,
and has not been passed to the underlying `free`. -/
structure Survives (before after : Heap) (object : Object) : Prop where
  span : AgreesOn object.span before.memory after.memory
  blocks : after.blocks = before.blocks
  freed : after.freed = before.freed

/-- A call of realloc returns `NULL`, and the object survives. -/
def FailsSafely (arena : Arena) (heap : Heap) (object : Object) (sz : Nat)
    (answer : Block) (watch : Option (Watch × Watch)) : Prop :=
  ∃ after,
    customRealloc arena object.start sz answer watch heap = some (0, after) ∧
      Survives heap after object

/-- The pointer is `NULL` or to a call site. -/
def NullOrKnown (heap : Heap) (callstack : Nat) : Prop :=
  callstack = 0 ∨ (heap.watchedRatio callstack).isSome = true

/-- Freeing the object does nothing to it: it lies in the temporary buffer, or
its head word is gone and the check at free takes another object for the one
that overran it. -/
def FreeSpares (heap : Heap) (object : Object) : Prop :=
  object.temporary = true ∨
    ¬HasHead heap.memory object.guard ∧
      ∃ head,
        findHead heap.memory (object.guard / 8 + 1) object.guard =
            some head ∧
          NullOrKnown heap (readWord heap.memory (sub head 8))

theorem blame_isSome_iff
    {heap : Heap}
    {callstack : Nat} :
    (∃ after, blame callstack heap = some after) ↔
      NullOrKnown heap callstack := by
  rw [blame, NullOrKnown]
  split_ifs with null known
  · simp [null]
  · simp [known]
  · simp [null, known]

/-- What `CUSTOM_REALLOC` does after a failed allocation. -/
theorem customRealloc_of_null
    {watch : Option (Watch × Watch)}
    {middle : Heap}
    (sound : state.heap.Sound arena)
    (nonnull : object.start ≠ 0)
    (fails : customMalloc arena sz answer (watch.map Prod.fst) state.heap =
      some (0, middle)) :
    customRealloc arena object.start sz answer watch state.heap =
      (xxmallocUsableSize arena object.start state.heap).bind fun _ =>
        (customFree arena object.start state.heap).map fun heap =>
          (0, heap) := by
  obtain ⟨large, rfl⟩ := customMalloc_eq_null sound fails
  have positive : sz ≠ 0 := by omega
  rw [customRealloc, if_neg nonnull, if_neg positive]
  simp only [fails, Option.bind_some, ne_eq, not_true_eq_false, if_false]

/-- `CUSTOM_FREE` of an object in the temporary buffer. -/
theorem customFree_of_temporary
    {heap : Heap}
    (sited : object.Sited arena)
    (temporary : object.temporary = true) :
    customFree arena object.start heap = some heap := by
  have inside : ¬(object.start > arena.buf + initialMallocSize ∨
      object.start < arena.buf) := by
    intro outside
    have permanent := sited.mpr outside
    rw [temporary] at permanent
    cases permanent
  unfold customFree xxfree xxrealfree
  rw [if_neg fun outside => inside outside.2]

/-- `CUSTOM_FREE` of an object whose head word is gone frees nothing. -/
theorem customFree_of_lost
    {heap : Heap}
    (sited : object.Sited arena)
    (fits : object.Fits)
    (permanent : object.temporary = false)
    (noHead : ¬HasHead heap.memory object.guard) :
    customFree arena object.start heap =
      (findHead heap.memory (object.guard / 8 + 1) object.guard).bind
        fun head => blame (readWord heap.memory (sub head 8)) heap := by
  have guardInside := fits.guardInside
  unfold customFree xxfree xxrealfree checkPointer
  dsimp only
  rw [if_pos ⟨by omega, sited.mp permanent⟩, fits.getObjectGuard_eq,
    if_neg (isGoodHead_iff.not.mpr noHead)]
  cases findHead heap.memory (object.guard / 8 + 1) object.guard with
  | none => rfl
  | some head =>
      rw [Option.bind_some, Option.bind_some]
      cases blame (readWord heap.memory (sub head 8)) heap with
      | none => rfl
      | some after => rfl

/-- A release that leaves the object's bytes is none. -/
theorem Released.spares
    {before after : Heap}
    (released : Released before after object)
    (span : AgreesOn object.span before.memory after.memory) :
    object.temporary = true ∨
      object.temporary = false ∧ ¬HasHead before.memory object.guard := by
  cases released with
  | temporary isTemporary same => exact .inl isTemporary
  | good notTemporary head tail result =>
      have kept := (hasHead_iff_of_span span).mpr head
      rw [result, Real.free_memory] at kept
      exact absurd kept not_hasHead_resetHead
  | overflowed notTemporary head tail middle blamed result =>
      have kept := (hasHead_iff_of_span span).mpr head
      rw [result, Real.free_memory] at kept
      exact absurd kept not_hasHead_resetHead
  | lost notTemporary noHead head found blamed =>
      exact .inr ⟨notTemporary, noHead⟩

/-- An object survives being freed exactly when `FreeSpares` says so. -/
theorem survives_customFree_iff
    {heap : Heap}
    (sited : object.Sited arena)
    (fits : object.Fits) :
    (∃ after, customFree arena object.start heap = some after ∧
        Survives heap after object) ↔
      FreeSpares heap object := by
  constructor
  · rintro ⟨after, freed, survives⟩
    have released := customFree_released sited fits freed
    rcases released.spares survives.span with
      temporary | ⟨permanent, noHead⟩
    · exact .inl temporary
    · rw [customFree_of_lost sited fits permanent noHead] at freed
      obtain ⟨head, found, blames⟩ := Option.bind_eq_some_iff.mp freed
      exact .inr ⟨noHead, head, found, blame_isSome_iff.mp ⟨after, blames⟩⟩
  · intro spares
    cases temporary : object.temporary with
    | true =>
        exact ⟨heap, customFree_of_temporary sited temporary,
          AgreesOn.refl object.span heap.memory, rfl, rfl⟩
    | false =>
        rcases spares with isTemporary | ⟨noHead, head, found, known⟩
        · rw [temporary] at isTemporary
          cases isTemporary
        · obtain ⟨after, blames⟩ := blame_isSome_iff.mpr known
          refine ⟨after, ?_, ?_⟩
          · rw [customFree_of_lost sited fits temporary noHead, found,
              Option.bind_some, blames]
          · rw [(blamed_of_blame blames).rest]
            exact ⟨AgreesOn.refl object.span heap.memory, rfl, rfl⟩

/-- The call of realloc for which `CUSTOM_MALLOC` returns `NULL` returns `NULL`
and leaves the object alone exactly when the old size can be asked for and
freeing the object would do nothing. -/
theorem failsSafely_iff
    {watch : Option (Watch × Watch)}
    {middle : Heap}
    (layout : Layout arena state)
    (live : object ∈ state.live)
    (fails : customMalloc arena sz answer (watch.map Prod.fst) state.heap =
      some (0, middle)) :
    FailsSafely arena state.heap object sz answer watch ↔
      (xxmallocUsableSize arena object.start state.heap).isSome = true ∧
        FreeSpares state.heap object := by
  have placed : state.Placed object := Or.inl live
  have fits := layout.fits object placed
  have sited := layout.sited placed
  have nonnull : object.start ≠ 0 := by
    have := fits.guardInside
    omega
  rw [← survives_customFree_iff sited fits, FailsSafely,
    customRealloc_of_null layout.sound nonnull fails]
  cases xxmallocUsableSize arena object.start state.heap with
  | none => simp
  | some objSize => simp

end

/-- An object of 100 bytes from before the initialisation. -/
def temporaryObject : Object :=
  ⟨0, 2 ^ 20 + 32, 100, 2 ^ 20, 144, 8, 0, true⟩

/-- An object in the temporary buffer survives a request for half the address
space. -/
theorem failsSafely_iff_temporary :
    ∃ state,
      Machine.run (HeapState.step sampleArena)
          (HeapState.start (zeroHeap false))
          [.malloc 100 (blockAt 0 0) none] = some state ∧
        FailsSafely sampleArena state.heap temporaryObject (2 ^ 63)
          (blockAt 0 0) none := by
  have along : Machine.Along (HeapState.step sampleArena)
      (Respects sampleArena) (HeapState.start (zeroHeap false))
      [.malloc 100 (blockAt 0 0) none] := by
    decide +kernel
  have facts : (Machine.run (HeapState.step sampleArena)
      (HeapState.start (zeroHeap false))
      [.malloc 100 (blockAt 0 0) none]).map (fun state =>
        (state.live, (xxmallocUsableSize sampleArena temporaryObject.start
          state.heap).isSome)) = some ([temporaryObject], true) := by
    decide +kernel
  obtain ⟨state, executed, facts⟩ := Option.map_eq_some_iff.mp facts
  obtain ⟨live, usable⟩ := Prod.mk.inj facts
  have layout := layout_of_run (zeroHeap_sound false) along executed
  have fails : customMalloc sampleArena (2 ^ 63) (blockAt 0 0)
      ((none : Option (Watch × Watch)).map Prod.fst) state.heap =
        some (0, state.heap) := rfl
  exact ⟨state, executed,
    (failsSafely_iff layout (live ▸ List.mem_singleton.mpr rfl) fails).mpr
      ⟨usable, .inl rfl⟩⟩

/-- An object of the underlying allocator is freed by a request for half the
address space, which fails. -/
theorem failed_realloc_frees :
    ∃ state,
      Machine.run (HeapState.step sampleArena)
          (HeapState.start (zeroHeap true)) keepRun = some state ∧
        keepObject ∈ state.live ∧
        customMalloc sampleArena (2 ^ 63) (blockAt 0 0) none state.heap =
          some (0, state.heap) ∧
        ¬FailsSafely sampleArena state.heap keepObject (2 ^ 63) (blockAt 0 0)
          none := by
  have facts : (Machine.run (HeapState.step sampleArena)
      (HeapState.start (zeroHeap true)) keepRun).map (fun state =>
        (state.live, state.heap.freed,
          (customRealloc sampleArena keepObject.start (2 ^ 63) (blockAt 0 0)
            none state.heap).map fun result => result.2.freed)) =
      some ([keepObject], [], some [keepObject.base]) := by
    decide +kernel
  obtain ⟨state, executed, facts⟩ := Option.map_eq_some_iff.mp facts
  simp only [Prod.mk.injEq] at facts
  obtain ⟨live, freedBefore, freedAfter⟩ := facts
  refine ⟨state, executed, live ▸ List.mem_singleton.mpr rfl, rfl, ?_⟩
  rintro ⟨after, returned, survives⟩
  rw [returned, Option.map_some, survives.freed, freedBefore] at freedAfter
  cases freedAfter

end Causer
