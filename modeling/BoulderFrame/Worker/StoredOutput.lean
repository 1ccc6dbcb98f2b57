import BoulderFrame.Worker.Attempts

/-!
# The stored output of a completed job

All attempts at a job put their rendered files under the one output key of the job, and only the
link of the output is guarded by the lease. So the object of a completed job has the recorded size
as long as the last put under its key was made by an attempt that held the job; an attempt that has
lost its lease may still overwrite it.

## Main definitions

* `overwritten`: a world in which it does

## Main results

* `World.completed_stored`: the object of a completed job has the recorded size, unless it was last
  put without the lease
-/

namespace BoulderFrame

namespace World

variable {files : String → ℤ} {w : World} {c : Pool.Config String Effect Effect.Answer
  (Except Raised ProcessResult × Unit) World}

/-- The output asset of a job is determined. -/
theorem linked_unique {db : Database} {j : Uuid} {row : JobRow} {a a' : Asset}
    (h : Linked db j row a) (h' : Linked db j row a') : a' = a := by
  have hid : a'.id = a.id := Option.some.inj (h'.row_eq.symm.trans h.row_eq)
  have hfind := KeyedTable.find_eq_some.mpr ⟨h.mem, rfl⟩
  have hfind' := KeyedTable.find_eq_some.mpr ⟨h'.mem, hid⟩
  exact Option.some.inj (hfind'.symm.trans hfind)

/-- **The object of a completed job** has the size that its output asset records, unless the last
put under the output key was made by an attempt without the lease of the job. -/
theorem completed_stored (hw : w.Initial) (hc : (attempts files).Reachable w c) {j : Uuid}
    {row : JobRow} (hrow : c.shared.db.jobs j = some row) (hcompleted : row.state = .completed) :
    ∃ a, Linked c.shared.db j row a ∧ (∀ a', Linked c.shared.db j row a' → a' = a) ∧
      (outputStorageKey row.projectId j ∉ c.shared.strays →
        c.shared.objects (outputStorageKey row.projectId j) = some a.sizeBytes) := by
  obtain ⟨-, a, -, -, ha, hstored⟩ := (reachable_inv hw hc j row hrow).completed hcompleted
  exact ⟨a, ha, fun a' ha' => linked_unique ha ha', ha.key.2 ▸ hstored⟩

/-- The attempt before it puts its file. -/
def beforePut : World := ((process sampleConfig pipelineHandlers "attempt" sampleTask ()).advance
    (serve (fun _ => 4096) sampleOutput sampleMedia "attempt") 21 sample).2

theorem beforePut_holdsOutput :
    beforePut.HoldsOutput "attempt" (outputStorageKey sampleProject sampleJob) := by
  have hheld : ∃ row ∈ beforePut.db.jobs sampleJob, row.HeldBy "attempt" beforePut.now ∧
      row.projectId = sampleProject := by decide +kernel
  obtain ⟨row, hrow, hheld, hproject⟩ := hheld
  exact ⟨sampleJob, row, hrow, hheld, hproject ▸ rfl⟩

/-- The output of the created job is put with the lease, and not put again. -/
theorem not_mem_strays_sampleDone :
    outputStorageKey sampleProject sampleJob ∉ sampleDone.strays := by
  have hstrays : sampleDone.strays =
      (beforePut.put "attempt" (outputStorageKey sampleProject sampleJob) 4096).strays := rfl
  rw [hstrays, put, Set.mem_ofPred_eq, if_pos rfl, not_not]
  exact beforePut_holdsOutput

/-- The created job's object after an undisturbed attempt. -/
theorem completed_stored_sample : ∃ row a, sampleDone.db.jobs sampleJob = some row ∧
    row.state = .completed ∧ Linked sampleDone.db sampleJob row a ∧
    (∀ a', Linked sampleDone.db sampleJob row a' → a' = a) ∧
    sampleDone.objects (outputStorageKey sampleProject sampleJob) = some a.sizeBytes := by
  obtain ⟨c, hc, hshared⟩ := sampleDone_reachable
  have hstate : ∃ row ∈ sampleDone.db.jobs sampleJob, row.state = .completed ∧
      row.projectId = sampleProject := by decide +kernel
  obtain ⟨row, hrow, hcompleted, hproject⟩ := hstate
  obtain ⟨a, ha, hunique, hstored⟩ := completed_stored sample_initial hc (hshared ▸ hrow) hcompleted
  rw [hshared] at ha hunique hstored
  rw [hproject] at hstored
  exact ⟨row, a, hrow, hcompleted, ha, hunique, hstored not_mem_strays_sampleDone⟩

/-! ## An overwritten output -/

/-- Two attempts render files of different sizes. -/
def twoSizes (t : String) : ℤ := if t = "first" then 4096 else 8192

/-- The program of an attempt at the created job. -/
def sampleProcess (t : String) : Prog Effect Effect.Answer (Except Raised ProcessResult × Unit) :=
  process sampleConfig pipelineHandlers t sampleTask ()

/-- The first attempt up to its put. -/
def renderedFirst :
    Prog Effect Effect.Answer (Except Raised ProcessResult × Unit) × World :=
  (sampleProcess "first").advance (serve twoSizes sampleOutput sampleMedia "first") 21 sample

/-- Its lease expires, and the second attempt completes the job. -/
def completedSecond : World :=
  ((sampleProcess "second").advance (serve twoSizes sampleOutput sampleMedia "second") 100
    { renderedFirst.2 with now := 61000000 }).2

/-- The first attempt puts its file. -/
def overwritten : World :=
  (renderedFirst.1.advance (serve twoSizes sampleOutput sampleMedia "first") 1 completedSecond).2

theorem overwritten_reachable : ∃ c, (attempts twoSizes).Reachable sample c ∧
    c.shared = overwritten := by
  have hstart : ∀ t w, (attempts twoSizes).start t w (sampleProcess t) :=
    fun t _ => ⟨sampleConfig, sampleTask, rfl⟩
  have hexpired : renderedFirst.2.Env { renderedFirst.2 with now := 61000000 } :=
    .clock (by decide +kernel)
  exact Pool.Reachable.overtaken (by decide : "first" ≠ "second")
    (serve_step twoSizes sampleOutput sampleMedia "first")
    (serve_step twoSizes sampleOutput sampleMedia "second") (hstart "first" sample)
    (hstart "second" _) 21 100 1 hexpired

/-- **An attempt that has lost its lease** overwrites the output of the completed job. -/
theorem completed_overwritten : ∃ c row a, (attempts twoSizes).Reachable sample c ∧
    c.shared.db.jobs sampleJob = some row ∧ row.state = .completed ∧
    Linked c.shared.db sampleJob row a ∧ a.sizeBytes = 8192 ∧
    c.shared.objects (outputStorageKey row.projectId sampleJob) = some 4096 := by
  obtain ⟨c, hc, hshared⟩ := overwritten_reachable
  have hstate : (overwritten.db.jobs sampleJob).map (fun row => (row.state, row.projectId)) =
      some (.completed, sampleProject) := by decide +kernel
  have hsizes : ∀ a ∈ overwritten.db.assets.rows, a.kind = .output → a.sizeBytes = 8192 := by
    decide +kernel
  have hobject : overwritten.objects (outputStorageKey sampleProject sampleJob) = some 4096 := by
    decide +kernel
  obtain ⟨row, hrow, hcompleted⟩ := Option.map_eq_some_iff.mp hstate
  obtain ⟨hcompleted, hproject⟩ := Prod.mk.inj hcompleted
  rw [← hshared] at hrow hsizes hobject
  obtain ⟨-, a, -, -, ha, -⟩ := (reachable_inv sample_initial hc _ row hrow).completed hcompleted
  exact ⟨c, row, a, hc, hrow, hcompleted, ha, hsizes a ha.mem ha.kind, hproject ▸ hobject⟩

end World

end BoulderFrame
