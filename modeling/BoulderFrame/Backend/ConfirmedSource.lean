import BoulderFrame.Backend.JobRequests
import BoulderFrame.Backend.SourceUpload
import BoulderFrame.Worker.Attempts

/-!
# The bytes of a processed source

A completion compares sizes once, while the URL stays usable. As long as no upload through a URL
changes the size of an object once a completion has been told the requested one, nor its bytes once
its asset is uploaded, every source that an attempt processes has the confirmed size and bytes; an
upload that changes them is processed unnoticed.

## Main definitions

* `SourceWorld.KeepsConfirmed`: the uploads that keep what is confirmed
* `SourceWorld.Inv`: the invariant that links the assets, the objects, the jobs and the sources
* `SourceWorld.Licensed`: when an effect keeps the invariant

## Main results

* `SourceWorld.wp_program`: every call keeps the invariant
* `SourceWorld.processed_confirmed`: every processed source has the confirmed size and bytes
-/

namespace BoulderFrame

open Prog (perform)
open BackendEffect SourceEffect

theorem sourceAssetId_of_claimSql {workerId : String} {leaseSeconds : ℤ} {now : Time}
    {row row' : JobRow} (h : claimSql workerId leaseSeconds now row = some row') :
    row'.sourceAssetId = row.sourceAssetId := by
  obtain rfl := Option.some.inj (Option.ite_none_right_eq_some.mp h).2
  rfl

namespace SourceWorld

variable {ι : Type} {w w' w'' : SourceWorld ι}

/-- The asset is a source, with the given key and size. -/
def SourceAt (id : Uuid) (key : String) (size : ℤ) (w : SourceWorld ι) : Prop :=
  ∃ asset, w.assets id = some asset ∧ asset.kind = .source ∧ asset.storageKey = key ∧
    asset.sizeBytes = size

/-- **The uploads that keep what is confirmed**: once a completion has been told that the object of
a source has the requested size, its bytes are replaced by as many only, and once the source is
uploaded, by the same only. -/
structure KeepsConfirmed (w : SourceWorld ι) (key : String) (data : ObjectData) : Prop where
  size : ∀ id size, w.SourceAt id key size → (key, size) ∈ w.heads →
    (data.bytes.length : ℤ) = size
  bytes : ∀ id asset, w.assets id = some asset → asset.kind = .source → asset.storageKey = key →
    asset.uploadState = .uploaded → w.bytesAt key = some data.bytes

/-- **The invariant.** -/
structure Inv (w : SourceWorld ι) : Prop where
  ids : ∀ id asset, w.assets id = some asset → asset.id = id
  keys : ∀ id key size, w.SourceAt id key size →
    ∃ projectId filename, key = sourceStorageKey projectId id filename
  others : ∀ id asset, w.assets id = some asset → asset.kind ≠ .source →
    asset.uploadState = .uploaded
  heads : ∀ key size, (key, size) ∈ w.heads → ∃ id size, w.SourceAt id key size
  stored : ∀ id key size, w.SourceAt id key size → (key, size) ∈ w.heads →
    ∃ data, w.objects key = some data ∧ (data.bytes.length : ℤ) = size
  uploaded : ∀ id asset, w.assets id = some asset → asset.kind = .source →
    asset.uploadState = .uploaded →
    (asset.storageKey, asset.sizeBytes) ∈ w.heads ∧
      w.confirmed id = some ⟨asset.sizeBytes, w.bytesAt asset.storageKey⟩
  confirmed : ∀ id confirmation, w.confirmed id = some confirmation →
    ∃ asset, w.assets id = some asset ∧ asset.uploadState = .uploaded
  jobs : ∀ job ∈ w.jobs.rows, ∃ key size, w.SourceAt job.row.sourceAssetId key size
  processed : ∀ source bytes, (source, bytes) ∈ w.processed →
    w.confirmed source = some ⟨bytes.length, some bytes⟩

/-- What the calls rely on: sources keep their keys and sizes, and what has been told and confirmed
stays so. -/
structure Relies (w w' : SourceWorld ι) : Prop where
  sources : ∀ id key size, w.SourceAt id key size → w'.SourceAt id key size
  heads : w.heads ⊆ w'.heads
  confirmed : ∀ id confirmation, w.confirmed id = some confirmation →
    w'.confirmed id = some confirmation

theorem Relies.rfl : Relies w w := ⟨fun _ _ _ h => h, List.Subset.refl _, fun _ _ h => h⟩

theorem Relies.trans (h : Relies w w') (h' : Relies w' w'') : Relies w w'' where
  sources id key size hsource := h'.sources id key size (h.sources id key size hsource)
  heads := List.Subset.trans h.heads h'.heads
  confirmed id confirmation hid := h'.confirmed id _ (h.confirmed id confirmation hid)

/-! ## What keeps the invariant -/

/-- **When an effect keeps the invariant.** -/
def Licensed (w : SourceWorld ι) : BackendEffect ⊕ SourceEffect → Prop
  | .inl (.createOrGetJob job) => ∃ key size, w.SourceAt job.row.sourceAssetId key size
  | .inr (.createSourceAsset asset) => asset.kind = .source ∧ asset.uploadState = .pending ∧
      ∃ projectId filename, asset.storageKey = sourceStorageKey projectId asset.id filename
  | .inr (.head key) => ∃ id size, w.SourceAt id key size
  | .inr (.updatePending id size _) => ∃ key, w.SourceAt id key size ∧ (key, size) ∈ w.heads
  | .inr (.processSource source bytes) => w.confirmed source = some ⟨bytes.length, some bytes⟩
  | _ => True

theorem assets_setAsset_self {id : Uuid} {asset : Asset} :
    (w.setAsset id asset).assets id = some asset := Function.update_self ..

theorem assets_setAsset_of_ne {id id' : Uuid} {asset : Asset} (hid : id' ≠ id) :
    (w.setAsset id asset).assets id' = w.assets id' := Function.update_of_ne hid ..

/-- The new row of an asset keeps what the old one says of a source. -/
theorem sourceAt_setAsset {id id' : Uuid} {asset : Asset} {key : String} {size : ℤ}
    (hasset : ∀ key size, w.SourceAt id key size →
      asset.kind = .source ∧ asset.storageKey = key ∧ asset.sizeBytes = size)
    (h : w.SourceAt id' key size) : (w.setAsset id asset).SourceAt id' key size := by
  by_cases hid : id' = id
  · subst hid
    exact ⟨asset, assets_setAsset_self, hasset key size h⟩
  · obtain ⟨old, hold, hfields⟩ := h
    exact ⟨old, (assets_setAsset_of_ne hid).trans hold, hfields⟩

/-- A row of the changed table is the new one, or was there before. -/
theorem of_assets_setAsset {id id' : Uuid} {asset asset' : Asset}
    (h : (w.setAsset id asset).assets id' = some asset') :
    (id' = id ∧ asset' = asset) ∨ (id' ≠ id ∧ w.assets id' = some asset') := by
  by_cases hid : id' = id
  · subst hid
    exact .inl ⟨Eq.refl _, (Option.some.inj (assets_setAsset_self.symm.trans h)).symm⟩
  · exact .inr ⟨hid, (assets_setAsset_of_ne hid).symm.trans h⟩

theorem relies_setAsset {id : Uuid} {asset : Asset} {confirmed : Uuid → Option Confirmation}
    (hasset : ∀ key size, w.SourceAt id key size →
      asset.kind = .source ∧ asset.storageKey = key ∧ asset.sizeBytes = size)
    (hconfirmed : ∀ id confirmation, w.confirmed id = some confirmation →
      confirmed id = some confirmation) :
    Relies w { w.setAsset id asset with confirmed := confirmed } :=
  ⟨fun _ _ _ => sourceAt_setAsset hasset, List.Subset.refl _, hconfirmed⟩

/-- **The row of an asset**, new or changed, keeps the invariant if it keeps what is relied on and
is itself as the invariant has it. -/
theorem Inv.setAsset (h : w.Inv) {id : Uuid} {asset : Asset}
    {confirmed : Uuid → Option Confirmation}
    (hid : asset.id = id)
    (hasset : ∀ key size, w.SourceAt id key size →
      asset.kind = .source ∧ asset.storageKey = key ∧ asset.sizeBytes = size)
    (hkey : asset.kind = .source →
      ∃ projectId filename, asset.storageKey = sourceStorageKey projectId id filename)
    (hother : asset.kind ≠ .source → asset.uploadState = .uploaded)
    (hstored : asset.kind = .source → (asset.storageKey, asset.sizeBytes) ∈ w.heads →
      w.SourceAt id asset.storageKey asset.sizeBytes)
    (huploaded : asset.kind = .source → asset.uploadState = .uploaded →
      (asset.storageKey, asset.sizeBytes) ∈ w.heads ∧
        confirmed id = some ⟨asset.sizeBytes, w.bytesAt asset.storageKey⟩)
    (hconfirmed : ∀ confirmation, confirmed id = some confirmation →
      asset.uploadState = .uploaded)
    (hsame : ∀ id' ≠ id, confirmed id' = w.confirmed id')
    (hgrow : ∀ id confirmation, w.confirmed id = some confirmation →
      confirmed id = some confirmation) :
    Inv { w.setAsset id asset with confirmed := confirmed } where
  ids id' asset' h' := by
    obtain ⟨rfl, rfl⟩ | ⟨-, h'⟩ := of_assets_setAsset h'
    · exact hid
    · exact h.ids id' asset' h'
  keys id' key size := by
    rintro ⟨asset', h', hkind, rfl, rfl⟩
    obtain ⟨rfl, rfl⟩ | ⟨-, h'⟩ := of_assets_setAsset h'
    · exact hkey hkind
    · exact h.keys id' _ _ ⟨asset', h', hkind, rfl, rfl⟩
  others id' asset' h' hkind := by
    obtain ⟨rfl, rfl⟩ | ⟨-, h'⟩ := of_assets_setAsset h'
    · exact hother hkind
    · exact h.others id' asset' h' hkind
  heads key size hhead := by
    obtain ⟨id', size', hsource⟩ := h.heads key size hhead
    exact ⟨id', size', sourceAt_setAsset hasset hsource⟩
  stored id' key size := by
    rintro ⟨asset', h', hkind, rfl, rfl⟩ hhead
    obtain ⟨rfl, rfl⟩ | ⟨-, h'⟩ := of_assets_setAsset h'
    · exact h.stored id' _ _ (hstored hkind hhead) hhead
    · exact h.stored id' _ _ ⟨asset', h', hkind, rfl, rfl⟩ hhead
  uploaded id' asset' h' hkind hstate := by
    obtain ⟨rfl, rfl⟩ | ⟨hne, h'⟩ := of_assets_setAsset h'
    · exact huploaded hkind hstate
    · obtain ⟨hhead, hbytes⟩ := h.uploaded id' asset' h' hkind hstate
      exact ⟨hhead, hgrow id' _ hbytes⟩
  confirmed id' confirmation hid' := by
    by_cases hne : id' = id
    · subst hne
      exact ⟨asset, assets_setAsset_self, hconfirmed confirmation hid'⟩
    · obtain ⟨asset', h', hstate⟩ := h.confirmed id' _ ((hsame id' hne).symm.trans hid')
      exact ⟨asset', (assets_setAsset_of_ne hne).trans h', hstate⟩
  jobs job hjob := by
    obtain ⟨key, size, hsource⟩ := h.jobs job hjob
    exact ⟨key, size, sourceAt_setAsset hasset hsource⟩
  processed source bytes hmem := hgrow source _ (h.processed source bytes hmem)

/-- **The rows of jobs** keep the invariant if each has its source. -/
theorem Inv.setJobs (h : w.Inv) {jobs : JobTable}
    (hjobs : ∀ job ∈ jobs.rows, ∃ key size, w.SourceAt job.row.sourceAssetId key size) :
    (w.setJobs jobs).Inv := { h with jobs := hjobs }

theorem bytesAt_setObject_self {key : String} {data : Option ObjectData} :
    (w.setObject key data).bytesAt key = data.map ObjectData.bytes :=
  congrArg (Option.map ObjectData.bytes) (Function.update_self ..)

theorem bytesAt_setObject_of_ne {key key' : String} {data : Option ObjectData} (hkey : key' ≠ key) :
    (w.setObject key data).bytesAt key' = w.bytesAt key' :=
  congrArg (Option.map ObjectData.bytes) (Function.update_of_ne hkey ..)

/-- **An object** keeps the invariant if it has each size that has been told of it, and the bytes
that a source has been confirmed with. -/
theorem Inv.setObject (h : w.Inv) {key : String} {data : Option ObjectData}
    (hsize : ∀ id size, w.SourceAt id key size → (key, size) ∈ w.heads →
      ∃ stored, data = some stored ∧ (stored.bytes.length : ℤ) = size)
    (hbytes : ∀ id asset, w.assets id = some asset → asset.kind = .source →
      asset.storageKey = key → asset.uploadState = .uploaded →
      data.map ObjectData.bytes = w.bytesAt key) :
    (w.setObject key data).Inv :=
  { h with
    uploaded := fun id asset hasset hkind hstate => by
      obtain ⟨hhead, hconfirmed⟩ := h.uploaded id asset hasset hkind hstate
      refine ⟨hhead, hconfirmed.trans ?_⟩
      by_cases hkey : asset.storageKey = key
      · rw [hkey, bytesAt_setObject_self, hbytes id asset hasset hkind hkey hstate]
      · rw [bytesAt_setObject_of_ne hkey]
    stored := fun id key' size hsource hhead => by
      by_cases hkey : key' = key
      · subst hkey
        obtain ⟨stored, rfl, hlength⟩ := hsize id size hsource hhead
        exact ⟨stored, Function.update_self .., hlength⟩
      · obtain ⟨stored, hstored, hlength⟩ := h.stored id key' size hsource hhead
        exact ⟨stored, (Function.update_of_ne hkey ..).trans hstored, hlength⟩ }

/-- A changed row of a job keeps its source. -/
theorem Inv.modify (h : w.Inv) {job : StoredJob} {row : JobRow} (hjob : job ∈ w.jobs.rows)
    (hsource : row.sourceAssetId = job.row.sourceAssetId) :
    (w.setJobs (w.jobs.modify job.key (StoredJob.setRow row))).Inv := by
  refine h.setJobs fun stored hstored => ?_
  obtain ⟨old, hold, rfl⟩ := List.mem_map.mp hstored
  split_ifs
  · exact hsource ▸ h.jobs job hjob
  · exact h.jobs old hold

theorem relies_setJobs {jobs : JobTable} : Relies w (w.setJobs jobs) :=
  ⟨fun _ _ _ h => h, List.Subset.refl _, fun _ _ h => h⟩

theorem relies_setObject {key : String} {data : Option ObjectData} :
    Relies w (w.setObject key data) :=
  ⟨fun _ _ _ h => h, List.Subset.refl _, fun _ _ h => h⟩

/-! ## The steps -/

/-- A key with another beginning is not that of a source. -/
theorem append_ne_source {a x : String} {projectId id : Uuid} {filename : String}
    (ha : 9 ≤ a.toList.length) (htake : a.toList.take 9 ≠ "private/source/".toList.take 9) :
    a ++ x ≠ sourceStorageKey projectId id filename := by
  intro h
  have hsource : 9 ≤ "private/source/".toList.length := by decide
  unfold sourceStorageKey at h
  simp only [String.append_assoc] at h
  exact append_ne_of_take ha hsource htake h

theorem outputStorageKey_ne_source {projectId jobId projectId' id : Uuid} {filename : String} :
    outputStorageKey projectId jobId ≠ sourceStorageKey projectId' id filename := by
  have houtput : 9 ≤ "private/output/".toList.length := by decide
  unfold outputStorageKey
  simp only [String.append_assoc]
  exact append_ne_source houtput (by decide)

theorem reviewStorageKey_ne_source {projectId jobId reviewId projectId' id : Uuid}
    {name filename : String} :
    reviewStorageKey projectId jobId reviewId name ≠ sourceStorageKey projectId' id filename := by
  have hreview : 9 ≤ "private/debug/".toList.length := by decide
  unfold reviewStorageKey
  simp only [String.append_assoc]
  exact append_ne_source hreview (by decide)

theorem Env.relies {admits : SourceWorld ι → String → ObjectData → Prop} (henv : Env admits w w') :
    Relies w w' := by
  cases henv with
  | put | output | review => exact relies_setObject
  | expire | projects => exact ⟨fun _ _ _ h => h, List.Subset.refl _, fun _ _ h => h⟩
  | row => exact relies_setJobs
  | asset hid hkind hstate hold =>
    refine relies_setAsset (fun key size => ?_) fun _ _ h => h
    rintro ⟨old, h, hsource, -⟩
    exact absurd hsource (hold old h)

/-- **The clients and the rest** keep the invariant, if no upload changes what is confirmed. -/
theorem Env.inv (henv : Env KeepsConfirmed w w') (h : w.Inv) : w'.Inv := by
  have hother : ∀ {key : String} {data : Option ObjectData},
      (∀ projectId id filename, key ≠ sourceStorageKey projectId id filename) →
      (w.setObject key data).Inv := by
    intro key data hne
    have hnone : ∀ id size, ¬ w.SourceAt id key size := by
      intro id size hsource
      obtain ⟨projectId, filename, hkey⟩ := h.keys id _ size hsource
      exact hne projectId id filename hkey
    exact h.setObject (fun id size hsource => absurd hsource (hnone id size))
      fun id asset hasset hkind hkey => absurd ⟨asset, hasset, hkind, hkey, rfl⟩ (hnone id _)
  cases henv with
  | @put key data hurl hkeeps =>
    exact h.setObject (fun id size hsource hhead => ⟨data, rfl, hkeeps.size id size hsource hhead⟩)
      fun id asset hasset hkind hkey hstate => (hkeeps.bytes id asset hasset hkind hkey hstate).symm
  | expire | projects => exact { h with }
  | row hjob hsource => exact h.modify hjob hsource
  | asset hid hkind hstate hold =>
    refine h.setAsset hid (fun key size => ?_) (fun hsource => absurd hsource hkind)
      (fun _ => hstate) (fun hsource => absurd hsource hkind) (fun hsource => absurd hsource hkind)
      (fun _ _ => hstate) (fun _ _ => rfl) fun _ _ h => h
    rintro ⟨old, hassets, hsource, -⟩
    exact absurd hsource (hold old hassets)
  | output => exact hother fun _ _ _ => outputStorageKey_ne_source
  | review => exact hother fun _ _ _ => reviewStorageKey_ne_source

theorem relies_of_assets {b : BackendWorld ι} (hassets : b.assets = w.backend.assets) :
    Relies w { w with backend := b } := by
  refine ⟨fun id key size => ?_, List.Subset.refl _, fun _ _ h => h⟩
  rintro ⟨asset, h, hfields⟩
  exact ⟨asset, (congrFun hassets id).trans h, hfields⟩

/-- The confirmation of a source whose size has been told. -/
theorem Inv.update (h : w.Inv) {id : Uuid} {size : ℤ} {contentType : String}
    (hlicensed : w.Licensed (.inr (.updatePending id size contentType))) :
    (w.update id size contentType).2.Inv ∧ Relies w (w.update id size contentType).2 := by
  obtain ⟨key, ⟨asset, hasset, hkind, rfl, rfl⟩, hhead⟩ := hlicensed
  unfold SourceWorld.update
  simp only [hasset]
  split_ifs with hpending
  · have hunconfirmed : w.confirmed id = none := by
      rw [Option.eq_none_iff_forall_ne_some]
      intro confirmation hid
      obtain ⟨asset', hasset', hstate⟩ := h.confirmed id confirmation hid
      obtain rfl := Option.some.inj (hasset.symm.trans hasset')
      rw [hpending] at hstate
      cases hstate
    have hsource : w.SourceAt id asset.storageKey asset.sizeBytes := ⟨asset, hasset, hkind, rfl, rfl⟩
    have hkeep : ∀ key size, w.SourceAt id key size →
        asset.kind = .source ∧ asset.storageKey = key ∧ asset.sizeBytes = size := by
      rintro key size ⟨asset', hasset', hfields⟩
      obtain rfl := Option.some.inj (hasset.symm.trans hasset')
      exact hfields
    have hgrow : ∀ id' confirmation, w.confirmed id' = some confirmation →
        Function.update w.confirmed id (some ⟨asset.sizeBytes, w.bytesAt asset.storageKey⟩) id' =
          some confirmation := by
      intro id' confirmation hid'
      have hne : id' ≠ id := by
        rintro rfl
        rw [hunconfirmed] at hid'
        cases hid'
      exact (Function.update_of_ne hne ..).trans hid'
    refine ⟨h.setAsset (h.ids id asset hasset) hkeep (fun _ => h.keys id _ _ hsource) (fun _ => rfl)
      (fun _ _ => hsource) (fun _ _ => ⟨hhead, Function.update_self ..⟩) (fun _ _ => rfl)
      (fun id' hne => Function.update_of_ne hne ..) hgrow, relies_setAsset hkeep hgrow⟩
  · exact ⟨h, .rfl⟩

/-- The insertion of a source. -/
theorem Inv.create (h : w.Inv) {asset : Asset}
    (hlicensed : w.Licensed (.inr (.createSourceAsset asset))) (hid : w.assets asset.id = none)
    (hkey : ∀ id old, w.assets id = some old → old.storageKey ≠ asset.storageKey) :
    (w.setAsset asset.id asset).Inv ∧ Relies w (w.setAsset asset.id asset) := by
  obtain ⟨hkind, hpending, projectId, filename, hstorage⟩ := hlicensed
  have hnone : ∀ key size, ¬ w.SourceAt asset.id key size := by
    rintro key size ⟨old, hold, -⟩
    rw [hid] at hold
    cases hold
  have hkeep : ∀ key size, w.SourceAt asset.id key size →
      asset.kind = .source ∧ asset.storageKey = key ∧ asset.sizeBytes = size :=
    fun key size hsource => absurd hsource (hnone key size)
  have hnew : ∀ size, (asset.storageKey, size) ∉ w.heads := by
    intro size hhead
    obtain ⟨id, _, old, hold, -, heq, -⟩ := h.heads _ _ hhead
    exact hkey id old hold heq
  have hunconfirmed : ∀ confirmation, w.confirmed asset.id ≠ some confirmation := by
    intro confirmation hconfirmed
    obtain ⟨old, hold, -⟩ := h.confirmed _ confirmation hconfirmed
    rw [hid] at hold
    cases hold
  have hstate : asset.uploadState ≠ .uploaded := by
    rw [hpending]
    decide
  exact ⟨h.setAsset rfl hkeep (fun _ => ⟨projectId, filename, hstorage⟩) (absurd hkind)
    (fun _ hhead => absurd hhead (hnew _)) (fun _ h => absurd h hstate)
    (fun _ hconfirmed => absurd hconfirmed (hunconfirmed _)) (fun _ _ => rfl) fun _ _ h => h,
    relies_setAsset hkeep fun _ _ h => h⟩

variable [DecidableEq ι] {i : ι}

/-- An effect of a request for a job changes the jobs, the stream and the responses only. -/
theorem assets_of_step {b b' : BackendWorld ι} {e : BackendEffect} {a : e.Answer}
    (hstep : BackendWorld.Step i b e a b') : b'.assets = b.assets := by
  cases hstep <;> rfl

theorem Inv.backend (h : w.Inv) {b : BackendWorld ι} {e : BackendEffect} {a : e.Answer}
    (hlicensed : w.Licensed (.inl e)) (hstep : BackendWorld.Step i w.backend e a b) :
    Inv { w with backend := b } := by
  cases hstep with
  | createOrGet | createdLate =>
    exact h.setJobs (BackendWorld.forall_mem_createOrGet h.jobs hlicensed)
  | _ => exact { h with }

/-- **A licensed effect** keeps the invariant, and what the others rely on. -/
theorem Step.inv {e : BackendEffect ⊕ SourceEffect}
    {a : Sum.elim BackendEffect.Answer SourceEffect.Answer e} (h : w.Inv) (hlicensed : w.Licensed e)
    (hstep : Step i w e a w') : w'.Inv ∧ Relies w w' := by
  cases e with
  | inl e =>
    obtain ⟨b, hstep, rfl⟩ := hstep
    exact ⟨h.backend hlicensed hstep, relies_of_assets (assets_of_step hstep)⟩
  | inr e =>
    have hstep : SourceStep i w e a w' := hstep
    cases hstep with
    | created hid hkey | createdLate hid hkey => exact h.create hlicensed hid hkey
    | updated | updatedLate => exact h.update hlicensed
    | presigned | reply => exact ⟨{ h with }, fun _ _ _ h => h, List.Subset.refl _, fun _ _ h => h⟩
    | @head key data hdata =>
      refine ⟨{ h with heads := ?_, stored := ?_, uploaded := ?_ },
        fun _ _ _ h => h, List.subset_cons_self .., fun _ _ h => h⟩
      · intro key' size hhead
        obtain hhead | hhead := List.mem_cons.mp hhead
        · obtain ⟨rfl, -⟩ := Prod.mk.inj hhead
          exact hlicensed
        · exact h.heads key' size hhead
      · intro id key' size hsource hhead
        obtain hhead | hhead := List.mem_cons.mp hhead
        · obtain ⟨rfl, rfl⟩ := Prod.mk.inj hhead
          exact ⟨data, hdata, rfl⟩
        · exact h.stored id key' size hsource hhead
      · intro id asset hasset hkind hstate
        obtain ⟨hhead, hconfirmed⟩ := h.uploaded id asset hasset hkind hstate
        exact ⟨List.mem_cons_of_mem _ hhead, hconfirmed⟩
    | claimed hjob hid hclaim =>
      exact ⟨h.modify hjob (sourceAssetId_of_claimSql hclaim), relies_setJobs⟩
    | claimedLate hjob hid hclaim =>
      exact ⟨h.modify hjob (sourceAssetId_of_claimSql hclaim), relies_setJobs⟩
    | processSource =>
      refine ⟨{ h with processed := ?_ }, fun _ _ _ h => h, List.Subset.refl _, fun _ _ h => h⟩
      intro source bytes hmem
      obtain hmem | hmem := List.mem_cons.mp hmem
      · obtain ⟨rfl, rfl⟩ := Prod.mk.inj hmem
        exact hlicensed
      · exact h.processed source bytes hmem
    | _ => exact ⟨h, .rfl⟩

/-! ## The calls -/

/-- What the calls rely on. -/
def discipline (ι : Type) : Pool.Discipline ι (SourceWorld ι) where
  inv := Inv
  rely _ := Relies
  rely_refl _ _ := .rfl
  rely_trans _ _ _ _ := .trans
  fresh _ _ := True
  fresh_rely _ _ _ _ _ := trivial

variable {settings : SourceSettings} {calls : ι → SourceCall} {α : Type}

/-- The setting of one call. -/
abbrev setting (settings : SourceSettings) (calls : ι → SourceCall) (i : ι) :
    Setting (BackendEffect ⊕ SourceEffect) (Sum.elim BackendEffect.Answer SourceEffect.Answer)
      (SourceWorld ι) :=
  (discipline ι).setting (sourceCalls settings calls KeepsConfirmed) i

section Call

variable {Q : α → SourceWorld ι → Prop}

/-- **An effect** of a call, which is licensed when it is performed. -/
theorem wp_effect {e : BackendEffect ⊕ SourceEffect}
    {k : Sum.elim BackendEffect.Answer SourceEffect.Answer e → SourceProg α}
    (h : ∀ w₁, Relies w w₁ → w₁.Inv → w₁.Licensed e ∧
      ∀ a w₂, Step i w₁ e a w₂ → Relies w₁ w₂ → (k a).wp (setting settings calls i) Q w₂) :
    (Prog.call e k).wp (setting settings calls i) Q w := by
  rintro w₁ ⟨hrely, hinv⟩ a w₂ hstep
  obtain ⟨hlicensed, hk⟩ := h w₁ hrely hinv
  obtain ⟨hinv', hrely'⟩ := Step.inv hinv hlicensed hstep
  exact ⟨⟨hinv', fun _ _ => hrely'⟩, hk a w₂ hstep hrely'⟩

/-- The effect is always licensed. -/
def Free (e : BackendEffect ⊕ SourceEffect) : Prop := ∀ w : SourceWorld ι, w.Licensed e

theorem wp_source {e : SourceEffect} {k : e.Answer → SourceProg α}
    (h : ∀ w₁, Relies w w₁ → w₁.Inv → w₁.Licensed (.inr e) ∧
      ∀ a w₂, SourceStep i w₁ e a w₂ → Relies w₁ w₂ → (k a).wp (setting settings calls i) Q w₂) :
    (performSource e >>= k).wp (setting settings calls i) Q w := wp_effect h

/-- An effect of a request that answers without an effect on the tables. -/
theorem wp_inl {e : BackendEffect} {k : e.Answer → SourceProg α} (hfree : Free (ι := ι) (.inl e))
    (h : ∀ w₁ a b w₂, Relies w w₁ → w₁.Inv → BackendWorld.Step i w₁.backend e a b →
      Relies w₁ w₂ → (k a).wp (setting settings calls i) Q w₂) :
    (Prog.call (.inl e) k).wp (setting settings calls i) Q w :=
  wp_effect fun w₁ hrely hinv => ⟨hfree w₁, fun a w₂ ⟨b, hstep, _⟩ =>
    h w₁ a b w₂ hrely hinv hstep⟩

theorem wp_backend {e : BackendEffect} {k : e.Answer → SourceProg α}
    (hfree : Free (ι := ι) (.inl e))
    (h : ∀ w₁ a b w₂, Relies w w₁ → w₁.Inv → BackendWorld.Step i w₁.backend e a b →
      Relies w₁ w₂ → (k a).wp (setting settings calls i) Q w₂) :
    (performBackend e >>= k).wp (setting settings calls i) Q w := wp_inl hfree h

/-- A program that performs such effects only keeps what is relied on. -/
theorem wp_only {p : SourceProg α} (hp : p.Only (Free (ι := ι))) :
    p.wp (setting settings calls i) (fun _ => Relies w) w := by
  have hall : ∀ w₁, Relies w w₁ → p.wp (setting settings calls i) (fun _ => Relies w) w₁ := by
    induction p with
    | pure a => exact fun _ h => h
    | call e k ih =>
      exact fun w₁ h => wp_effect fun w₂ hrely _ => ⟨hp.1 w₂, fun a w₃ _ hrely' =>
        ih a (hp.2 a) w₃ (h.trans (hrely.trans hrely'))⟩
  exact hall w .rfl

/-- The rest of a program, of which nothing is asked. -/
theorem wp_rest {p : SourceProg α} (hp : p.Only (Free (ι := ι))) :
    p.wp (setting settings calls i) (fun _ _ => True) w :=
  Prog.wp_mono (fun _ _ _ => trivial) (wp_only hp)

omit [DecidableEq ι] in
theorem only_reply {response : UploadResponse} :
    (performSource (.reply response)).Only (Free (ι := ι)) := ⟨fun _ => trivial, fun _ => trivial⟩

omit [DecidableEq ι] in
theorem only_respond {response : Response} :
    ((perform (BackendEffect.respond response) : BackendProg Unit).inl : SourceProg Unit).Only
      (Free (ι := ι)) := ⟨fun _ => trivial, fun _ => trivial⟩

theorem wp_uploadAsset {request : UploadRequest} {newId : Uuid} :
    (uploadAsset settings request newId).wp (setting settings calls i) (fun _ _ => True) w := by
  unfold uploadAsset
  cases request.projectId with
  | none => exact wp_rest only_reply
  | some projectId =>
    refine wp_backend (fun _ => trivial) fun _ a _ w₁ _ _ _ _ => ?_
    obtain e | project := a
    · exact wp_rest only_reply
    cases request.body with
    | none => exact wp_rest only_reply
    | some body =>
      obtain ⟨filename, contentType, size⟩ := body
      simp only
      split_ifs
      · exact wp_rest only_reply
      · refine wp_source fun w₂ _ _ =>
          ⟨⟨rfl, rfl, projectId, filename, rfl⟩, fun a w₃ _ _ => wp_rest ?_⟩
        obtain e | asset := a
        · exact only_reply
        refine ⟨fun _ => trivial, fun a => ?_⟩
        obtain e | key := a
        · exact only_reply
        · exact only_reply
      · exact wp_rest only_reply

omit [DecidableEq ι] in
/-- A pending asset is a source. -/
theorem Inv.sourceAt (h : w.Inv) {id : Uuid} {asset : Asset} (hasset : w.assets id = some asset)
    (hstate : asset.uploadState ≠ .uploaded) :
    w.SourceAt id asset.storageKey asset.sizeBytes := by
  refine ⟨asset, hasset, ?_, rfl, rfl⟩
  by_contra hkind
  exact hstate (h.others id asset hasset hkind)

/-- A confirmation of the size that has been told. -/
theorem wp_markAssetUploaded {id : Uuid} {key : String} {info : ObjectInfo}
    (hsource : w.SourceAt id key info.size) (htold : (key, info.size) ∈ w.heads) :
    (markAssetUploaded id info).wp (setting settings calls i) (fun _ _ => True) w := by
  unfold markAssetUploaded
  refine wp_source fun w₁ hrely _ => ⟨⟨key, hrely.sources id _ _ hsource, hrely.heads htold⟩,
    fun a w₂ _ _ => ?_⟩
  obtain e | asset | asset := a
  · trivial
  · exact wp_rest ⟨fun _ => trivial, fun _ => trivial⟩
  · trivial

theorem wp_completeAsset {assetId : Option Uuid} :
    (completeAsset settings assetId).wp (setting settings calls i) (fun _ _ => True) w := by
  unfold completeAsset
  cases assetId with
  | none => exact wp_rest only_reply
  | some id =>
    refine wp_backend (fun _ => trivial) fun w₁ a _ w₂ _ hinv hget hrely => ?_
    obtain e | asset := a
    · exact wp_rest only_reply
    have hasset : w₁.assets id = some asset := by
      cases hget
      assumption
    refine wp_backend (fun _ => trivial) fun _ a _ w₃ hrely₁ _ _ hrely₂ => ?_
    obtain e | project := a
    · exact wp_rest only_reply
    simp only
    split_ifs with hinvalid huploaded
    · exact wp_rest only_reply
    · exact wp_rest only_reply
    have hsource : w₃.SourceAt id asset.storageKey asset.sizeBytes :=
      (hrely.trans (hrely₁.trans hrely₂)).sources id _ _ (hinv.sourceAt hasset huploaded)
    -- the size is told while the object is there
    refine wp_source fun w₄ hrely₄ _ =>
      ⟨⟨id, _, hrely₄.sources id _ _ hsource⟩, fun a w₅ hhead hrely₅ => ?_⟩
    obtain e | info := a
    · exact wp_rest only_reply
    simp only
    split_ifs with hsize
    · exact wp_rest only_reply
    · have htold : (asset.storageKey, info.size) ∈ w₅.heads := by
        cases hhead
        exact List.mem_cons_self
      rw [not_not] at hsize
      have hsource₅ : w₅.SourceAt id asset.storageKey info.size := by
        rw [hsize]
        exact (hrely₄.trans hrely₅).sources id _ _ hsource
      refine Prog.wp_bind.mpr (Prog.wp_mono (fun a w₆ _ => wp_rest ?_)
        (wp_markAssetUploaded hsource₅ htold))
      obtain e | asset := a
      · exact only_reply
      · exact only_reply

/-! ### Requests for jobs -/

theorem newJobConfig_source {source : Uuid} {selection : TargetSelection} {output : OutputSettings}
    {pipeline model : String} {fps : ℚ} {config : JobConfig}
    (h : newJobConfig source selection output pipeline model fps = .ok config) :
    config.sourceAssetId = source := by
  unfold newJobConfig at h
  obtain ⟨-, h⟩ := Except.ok_of_guard h
  obtain ⟨-, h⟩ := Except.ok_of_guard h
  obtain ⟨-, h⟩ := Except.ok_of_guard h
  obtain ⟨-, h⟩ := Except.ok_of_guard h
  obtain rfl := Except.ok.inj h
  rfl

omit [DecidableEq ι] in
theorem only_publish {id traceId : Uuid} :
    (publish id.text traceId).Only fun e => Free (ι := ι) (.inl e) := by
  unfold publish
  split_ifs
  · trivial
  · refine ⟨fun _ => trivial, fun a => ?_⟩
    obtain e | watched := a
    · trivial
    refine ⟨fun _ => trivial, fun a => ?_⟩
    obtain e | value | value := a
    · trivial
    · exact ⟨fun _ => trivial, fun _ => trivial⟩
    · trivial

theorem wp_createAndPublish {traceId : Uuid} {job : StoredJob}
    (hsource : ∃ key size, w.SourceAt job.row.sourceAssetId key size) :
    ((createAndPublish traceId job).inl : SourceProg Unit).wp (setting settings calls i)
      (fun _ _ => True) w := by
  obtain ⟨key, size, hsource⟩ := hsource
  refine wp_effect fun w₁ hrely _ => ⟨⟨key, size, hrely.sources _ _ _ hsource⟩,
    fun a w₂ _ _ => wp_rest (Prog.only_inl ?_)⟩
  have hrespond : ∀ response, (perform (respond response) : BackendProg Unit).Only
      fun e => Free (ι := ι) (.inl e) := fun _ => ⟨fun _ => trivial, fun _ => trivial⟩
  obtain e | ⟨stored, existing⟩ := (a : Except BackendError (StoredJob × Bool))
  · exact hrespond _
  change Prog.Only _ (if existing = false ∨ stored.row.state = .queued then _ else _)
  split_ifs
  · refine Prog.only_bind only_publish fun a => ?_
    obtain e | _ := a
    · exact hrespond _
    · exact hrespond _
  · exact hrespond _

theorem wp_createJob {request : CreateJobRequest} {newId : Uuid} :
    ((createJob settings.handler request newId).inl : SourceProg Unit).wp
      (setting settings calls i) (fun _ _ => True) w := by
  unfold createJob
  cases request.projectId with
  | none => exact wp_rest only_respond
  | some projectId =>
    refine wp_inl (fun _ => trivial) fun _ a _ w₁ _ _ _ _ => ?_
    obtain e | project := a
    · exact wp_rest only_respond
    cases request.body with
    | none => exact wp_rest only_respond
    | some body =>
      obtain ⟨sourceAssetId, selection, output⟩ := body
      refine wp_inl (fun _ => trivial) fun w₂ a _ w₃ _ _ hget hrely => ?_
      obtain e | asset := a
      · exact wp_rest only_respond
      obtain ⟨hasset, hid⟩ : w₂.assets sourceAssetId = some asset ∧ asset.id = sourceAssetId := by
        cases hget
        exact ⟨by assumption, by assumption⟩
      change Prog.wp _ (Prog.inl (if _ then _ else if _ then _ else _)) _ _
      split_ifs with hproject hready
      · exact wp_rest only_respond
      · exact wp_rest only_respond
      · obtain ⟨hkind, -⟩ := not_or.mp hready
        cases hconfig : newJobConfig asset.id selection output settings.handler.pipelineVersion
            settings.handler.modelVersion settings.handler.detectionSampleFps with
        | error message => exact wp_rest only_respond
        | ok config =>
          refine wp_createAndPublish ⟨asset.storageKey, asset.sizeBytes, ?_⟩
          have hsource : config.sourceAssetId = sourceAssetId :=
            (newJobConfig_source hconfig).trans hid
          refine hrely.sources _ _ _ ⟨asset, ?_, not_not.mp hkind, rfl, rfl⟩
          exact (congrArg w₂.assets hsource).trans hasset

/-! ### Attempts -/

/-- The source has been confirmed. -/
def Confirmed (source : Asset) (w : SourceWorld ι) : Prop :=
  w.SourceAt source.id source.storageKey source.sizeBytes ∧
    ∃ confirmation, w.confirmed source.id = some confirmation

omit [DecidableEq ι] in
theorem Confirmed.later {source : Asset} (h : w.Confirmed source) (hrely : Relies w w') :
    w'.Confirmed source := by
  obtain ⟨hsource, confirmation, hconfirmed⟩ := h
  exact ⟨hrely.sources _ _ _ hsource, confirmation, hrely.confirmed _ _ hconfirmed⟩

omit [DecidableEq ι] in
/-- **The object of a confirmed source** has the confirmed size and bytes. -/
theorem Inv.confirmed_object (hinv : w.Inv) {source : Asset} {data : ObjectData}
    (h : w.Confirmed source) (hdata : w.objects source.storageKey = some data) :
    w.confirmed source.id = some ⟨data.bytes.length, some data.bytes⟩ := by
  obtain ⟨⟨asset, hasset, hkind, hkey, hsize⟩, confirmation, hid⟩ := h
  obtain ⟨asset', hasset', hstate⟩ := hinv.confirmed _ _ hid
  obtain rfl := Option.some.inj (hasset.symm.trans hasset')
  obtain ⟨hhead, hconfirmed⟩ := hinv.uploaded _ _ hasset hkind hstate
  obtain ⟨stored, hstored, hlength⟩ := hinv.stored _ _ _ ⟨asset, hasset, hkind, rfl, rfl⟩ hhead
  rw [hkey] at hstored hconfirmed
  obtain rfl := Option.some.inj (hstored.symm.trans hdata)
  rw [hconfirmed, hlength, bytesAt, hdata, Option.map_some]

/-- The scratch directory holds nothing of the source but what has been confirmed. -/
def HoldsConfirmed (source : Asset) (scratch : Option (List UInt8)) (w : SourceWorld ι) : Prop :=
  ∀ bytes, scratch = some bytes → w.confirmed source.id = some ⟨bytes.length, some bytes⟩

omit [DecidableEq ι] in
theorem HoldsConfirmed.later {source : Asset} {scratch : Option (List UInt8)}
    (h : w.HoldsConfirmed source scratch) (hrely : Relies w w') :
    w'.HoldsConfirmed source scratch :=
  fun bytes hbytes => hrely.confirmed _ _ (h bytes hbytes)

theorem uploaded_of_checked {job : StoredJob} {source : Asset}
    {selection : Protocol.TargetSelection ℚ} (h : checkedSelection job source = .ok selection) :
    source.uploadState = .uploaded := by
  unfold checkedSelection at h
  obtain ⟨_, -, h⟩ := Except.bind_eq_ok.mp h
  exact not_not.mp (Except.ok_of_guard h).1

/-- **The download** of a confirmed source has its bytes. -/
theorem wp_sourceOriginal {source : Asset} {scratch : Option (List UInt8)}
    (hsource : w.Confirmed source) (hscratch : w.HoldsConfirmed source scratch) :
    (sourceOriginal source scratch).wp (setting settings calls i)
      (fun result w' => Relies w w' ∧ ∀ bytes, result = .ok bytes →
        w'.HoldsConfirmed source (some bytes)) w := by
  cases scratch with
  | some bytes =>
    refine ⟨.rfl, fun bytes' h => ?_⟩
    obtain rfl := Except.ok.inj h
    exact hscratch
  | none =>
    refine wp_effect fun w₁ hrely hinv => ⟨trivial, fun a w₂ hstep hrely' => ?_⟩
    refine ⟨hrely.trans hrely', fun bytes h bytes' h' => ?_⟩
    subst h
    obtain rfl := Option.some.inj h'
    have hstep : SourceStep i w₁ (.download source.storageKey) (.ok bytes) w₂ := hstep
    cases hstep with
    | download hdata => exact hinv.confirmed_object (hsource.later hrely) hdata

omit [DecidableEq ι] in
theorem only_inspectSource {source : Asset} :
    (inspectSource settings source).Only (Free (ι := ι)) := by
  have hinspect : ∀ file allow, (performSource (inspect file allow)).Only (Free (ι := ι)) :=
    fun _ _ => ⟨fun _ => trivial, fun _ => trivial⟩
  unfold inspectSource
  refine Prog.only_bind (hinspect _ _) fun a => ?_
  obtain (⟨error⟩ | message | message | name) | metadata := a
  · refine Prog.only_ite trivial (Prog.only_bind (hinspect _ _) fun a => ?_)
    obtain e | original := a
    · trivial
    refine Prog.only_ite trivial (Prog.only_bind ⟨fun _ => trivial, fun _ => trivial⟩ fun _ => ?_)
    refine Prog.only_ite (hinspect _ _) (Prog.only_bind ⟨fun _ => trivial, fun _ => trivial⟩ ?_)
    rintro (e | _)
    · trivial
    · exact hinspect _ _
  all_goals trivial

/-- **The inputs** of a claimed job: what the scratch directory then holds is what has been
confirmed, and inputs are found of a confirmed source only. -/
theorem wp_inputs {job : StoredJob} {source : Asset} {scratch : Option (List UInt8)}
    (hclaimed : source.uploadState = .uploaded → w.Confirmed source)
    (hscratch : w.HoldsConfirmed source scratch) :
    (inputs settings job source scratch).wp (setting settings calls i) (fun result w' =>
      Relies w w' ∧ w'.HoldsConfirmed source result.2 ∧
        ∀ metadata, result.1 = .ok metadata → source.uploadState = .uploaded) w := by
  unfold inputs
  cases hchecked : checkedSelection job source with
  | error e => exact ⟨.rfl, hscratch, fun _ h => nomatch h⟩
  | ok selection =>
    have hstate := uploaded_of_checked hchecked
    refine Prog.wp_bind.mpr (Prog.wp_mono ?_ (wp_sourceOriginal (hclaimed hstate) hscratch))
    rintro (e | bytes) w₁ ⟨hrely, hbytes⟩
    · exact ⟨hrely, hscratch.later hrely, fun _ h => nomatch h⟩
    refine Prog.wp_bind.mpr (Prog.wp_mono ?_ (wp_only only_inspectSource))
    rintro (e | metadata) w₂ hrely'
    · exact ⟨hrely.trans hrely', (hbytes bytes rfl).later hrely', fun _ h => nomatch h⟩
    · exact ⟨hrely.trans hrely', (hbytes bytes rfl).later hrely', fun _ _ => hstate⟩

theorem wp_handleSource {job : StoredJob} {source : Asset} {scratch : Option (List UInt8)}
    (hclaimed : source.uploadState = .uploaded → w.Confirmed source)
    (hscratch : w.HoldsConfirmed source scratch) :
    (handleSource settings job source scratch).wp (setting settings calls i)
      (fun result w' => Relies w w' ∧ w'.HoldsConfirmed source result.2) w := by
  unfold handleSource
  refine Prog.wp_bind.mpr (Prog.wp_mono ?_ (wp_inputs hclaimed hscratch))
  rintro ⟨e | metadata, scratch'⟩ w₁ ⟨hrely, hscratch', -⟩
  · exact ⟨hrely, hscratch'⟩
  cases scratch' with
  | none => exact ⟨hrely, hscratch'⟩
  | some bytes =>
    -- the bytes are handed on as the confirmed source
    refine wp_source fun w₂ hrely₂ _ =>
      ⟨hscratch'.later hrely₂ bytes rfl, fun a w₃ _ hrely₃ => ?_⟩
    have hrely' := hrely₂.trans hrely₃
    exact ⟨hrely.trans hrely', hscratch'.later hrely'⟩

/-- **The handlers** of any stages, by induction on these. -/
theorem wp_handleStages {job : StoredJob} {source : Asset} {stages : List (JobState × ℤ)}
    {scratch : Option (List UInt8)}
    (hclaimed : source.uploadState = .uploaded → w.Confirmed source)
    (hscratch : w.HoldsConfirmed source scratch) :
    (handleStages settings job source stages scratch).wp (setting settings calls i)
      (fun scratch' w' => Relies w w' ∧ w'.HoldsConfirmed source scratch') w := by
  induction stages generalizing scratch w with
  | nil => exact ⟨.rfl, hscratch⟩
  | cons stage stages ih =>
    refine Prog.wp_bind.mpr (Prog.wp_mono ?_ (wp_handleSource hclaimed hscratch))
    rintro ⟨e | _, scratch'⟩ w₁ ⟨hrely, hscratch'⟩
    · exact ⟨hrely, hscratch'⟩
    · refine Prog.wp_mono ?_ (ih (fun hstate => (hclaimed hstate).later hrely) hscratch')
      rintro scratch₂ w₂ ⟨hrely', hscratch₂⟩
      exact ⟨hrely.trans hrely', hscratch₂⟩

/-- A claim answers the row of the job's source, which has been confirmed if it is uploaded. -/
theorem confirmed_of_claim {jobId : Uuid} {attemptId : String} {leaseSeconds : ℤ} {job : StoredJob}
    {source : Asset} (hinv : w.Inv) (hstep : SourceStep i w (.claim jobId attemptId leaseSeconds)
      (.ok (some (job, source))) w') : source.uploadState = .uploaded → w'.Confirmed source := by
  intro hstate
  cases hstep with
  | @claimed _ _ _ now job row _ hjob hid hclaim hsource =>
    obtain ⟨key, size, source', hsource', hkind, rfl, rfl⟩ := hinv.jobs job hjob
    obtain rfl := Option.some.inj (hsource.symm.trans hsource')
    have hid := hinv.ids _ _ hsource
    obtain ⟨-, hconfirmed⟩ := hinv.uploaded _ _ hsource hkind hstate
    rw [← hid] at hsource hconfirmed
    exact ⟨⟨source, hsource, hkind, rfl, rfl⟩, _, hconfirmed⟩

theorem wp_attempt {jobId : Uuid} {attemptId : String} :
    (attempt settings jobId attemptId).wp (setting settings calls i) (fun _ _ => True) w := by
  unfold attempt
  refine wp_source fun w₁ _ hinv => ⟨trivial, fun a w₂ hstep _ => ?_⟩
  obtain e | _ | ⟨job, source⟩ := a
  · trivial
  · trivial
  have hclaimed := confirmed_of_claim hinv hstep
  simp only
  by_cases hmodel : job.configuration.modelVersion ≠ settings.worker.modelVersion
  · rw [if_pos hmodel]
    trivial
  rw [if_neg hmodel]
  cases stagesFrom job.row.state with
  | error e => trivial
  | ok stages =>
    refine Prog.wp_bind.mpr (Prog.wp_mono ?_ (wp_handleStages hclaimed fun _ h => nomatch h))
    rintro scratch w₃ ⟨hrely, hscratch⟩
    split_ifs with hdebug
    · exact Prog.wp_bind.mpr (Prog.wp_mono (fun _ _ _ => trivial)
        (wp_handleSource (fun hstate => (hclaimed hstate).later hrely) hscratch))
    · trivial

/-- **Every call** keeps the invariant. -/
theorem wp_program {call : SourceCall} {newId : Uuid} :
    (call.program settings newId).wp (setting settings calls i) (fun _ _ => True) w := by
  cases call with
  | upload request => exact wp_uploadAsset
  | complete assetId => exact wp_completeAsset
  | createJob request => exact wp_createJob
  | attempt jobId attemptId => exact wp_attempt

end Call

/-! ## Reachable worlds -/

omit [DecidableEq ι] in
theorem Initial.inv (h : w.Initial) : w.Inv := by
  have hassets : ∀ {id asset}, w.assets id ≠ some asset := fun {id asset} hasset =>
    nomatch (h.assets id).symm.trans hasset
  have hsource : ∀ {id key size}, ¬ w.SourceAt id key size := fun ⟨_, hasset, _⟩ => hassets hasset
  refine ⟨fun _ _ h => absurd h hassets, fun _ _ _ h => absurd h hsource,
    fun _ _ h => absurd h hassets, fun key size hhead => ?_, fun _ _ _ h => absurd h hsource,
    fun _ _ h => absurd h hassets, fun id size hsize => ?_, fun job hjob => ?_,
    fun source bytes hmem => ?_⟩
  · rw [h.heads] at hhead
    cases hhead
  · exact nomatch (h.confirmed id).symm.trans hsize
  · rw [h.jobs] at hjob
    cases hjob
  · rw [h.processed] at hmem
    cases hmem

variable {c : Pool.Config ι (BackendEffect ⊕ SourceEffect)
  (Sum.elim BackendEffect.Answer SourceEffect.Answer) Unit (SourceWorld ι)}

/-- **The bytes of a processed source.** However the uploads, completions, requests and attempts
interleave, and whatever fails: if no upload changes the size of an object once a completion has been
told the requested size of its source, nor its bytes once the source is uploaded, then every source
that an attempt processes has exactly the size and the bytes that it was confirmed with. -/
theorem processed_confirmed (settings : SourceSettings) (calls : ι → SourceCall) (hw : w.Initial)
    (hc : (sourceCalls settings calls KeepsConfirmed).Reachable w c) :
    ∀ source bytes, (source, bytes) ∈ c.shared.processed →
      c.shared.confirmed source = some ⟨bytes.length, some bytes⟩ := by
  have henv : ∀ w w' : SourceWorld ι, (discipline ι).inv w →
      (sourceCalls settings calls KeepsConfirmed).env w w' →
      (discipline ι).inv w' ∧ ∀ i, (discipline ι).rely i w w' :=
    fun _ _ hinv henv => ⟨Env.inv henv hinv, fun _ => Env.relies henv⟩
  have hstart : ∀ i w p, (discipline ι).inv w → (discipline ι).fresh i w →
      (sourceCalls settings calls KeepsConfirmed).start i w p →
      p.wp ((discipline ι).setting (sourceCalls settings calls KeepsConfirmed) i)
        (fun _ _ => True) w := by
    rintro i w _ - - ⟨newId, rfl⟩
    exact wp_program
  exact ((discipline ι).sound henv hstart hw.inv (fun _ => trivial) hc).1.processed

/-! ## A replaced source -/

/-- What every effect answers if nothing fails; no asset is inserted. -/
def serveSource (i : ι) : (e : SourceEffect) → SourceWorld ι → e.Answer × SourceWorld ι
  | .createSourceAsset _, w => (.error (.failed "unique violation"), w)
  | .presignUpload key contentType, w => (.ok key, { w with urls := (key, contentType) :: w.urls })
  | .head key, w =>
    match w.objects key with
    | some data => (.ok data.info, { w with heads := (key, data.info.size) :: w.heads })
    | none => (.error .notFound, w)
  | .updatePending id size contentType, w =>
    (.ok (w.update id size contentType).1, (w.update id size contentType).2)
  | .reply response, w => ((), { w with replies := Function.update w.replies i (some response) })
  | .claim jobId attemptId leaseSeconds, w =>
    match w.jobs.rows.find? (·.id = jobId) with
    | none => (.ok none, w)
    | some job =>
      match claimSql attemptId leaseSeconds 0 job.row, w.assets job.row.sourceAssetId with
      | some row, some source => (.ok (some ({ job with row := row }, source)),
          w.setJobs (w.jobs.modify job.key (StoredJob.setRow row)))
      | _, _ => (.ok none, w)
  | .download key, w =>
    match w.objects key with
    | some data => (.ok data.bytes, w)
    | none => (.error storageError, w)
  | .inspect .., w => (.ok World.sampleMedia, w)
  | .isNormalized, w => (false, w)
  | .normalize _, w => (.ok (), w)
  | .processSource source bytes, w =>
    (.ok (), { w with processed := (source, bytes) :: w.processed })

theorem serveSource_step (i : ι) (e : SourceEffect) (w : SourceWorld ι) :
    SourceStep i w e (serveSource i e w).1 (serveSource i e w).2 := by
  cases e with
  | createSourceAsset => exact .notCreated
  | presignUpload => exact .presigned
  | head key =>
    cases h : w.objects key with
    | none =>
      simp only [serveSource, h]
      exact .noHead
    | some data =>
      simp only [serveSource, h]
      exact .head h
  | updatePending => exact .updated
  | reply => exact .reply
  | claim jobId attemptId leaseSeconds =>
    cases hjob : w.jobs.rows.find? (·.id = jobId) with
    | none =>
      simp only [serveSource, hjob]
      exact .unclaimed
    | some job =>
      cases hclaim : claimSql attemptId leaseSeconds 0 job.row with
      | none =>
        simp only [serveSource, hjob, hclaim]
        exact .unclaimed
      | some row =>
        cases hsource : w.assets job.row.sourceAssetId with
        | none =>
          simp only [serveSource, hjob, hclaim, hsource]
          exact .unclaimed
        | some source =>
          simp only [serveSource, hjob, hclaim, hsource]
          have hid : decide (job.id = jobId) = true :=
            List.find?_some (p := fun job : StoredJob => decide (job.id = jobId)) hjob
          exact .claimed (List.mem_of_find?_eq_some hjob) (of_decide_eq_true hid) hclaim hsource
  | download key =>
    cases h : w.objects key with
    | none =>
      simp only [serveSource, h]
      exact .notDownloaded
    | some data =>
      simp only [serveSource, h]
      exact .download h
  | inspect => exact .inspect
  | isNormalized => exact .isNormalized
  | normalize => exact .normalize
  | processSource => exact .processSource

def serve (i : ι) : (e : BackendEffect ⊕ SourceEffect) → SourceWorld ι →
    Sum.elim BackendEffect.Answer SourceEffect.Answer e × SourceWorld ι
  | .inl e, w => ((BackendWorld.serve i e w.backend).1,
      { w with backend := (BackendWorld.serve i e w.backend).2 })
  | .inr e, w => serveSource i e w

theorem serve_step (i : ι) (e : BackendEffect ⊕ SourceEffect) (w : SourceWorld ι) :
    Step i w e (serve i e w).1 (serve i e w).2 := by
  cases e with
  | inl e => exact ⟨_, BackendWorld.serve_step i e w.backend, rfl⟩
  | inr e => exact serveSource_step i e w

def sampleSettings : SourceSettings where
  handler := BackendWorld.sampleHandler
  maxUploadBytes := 2147483648
  worker := sampleConfig
  normalizationMaxSourceBytes := 1073741824

/-- A client asks for an upload of three bytes, completes it and asks for a job, which an attempt
claims. -/
def sampleCalls : ℕ → SourceCall
  | 0 => .upload ⟨some sampleProject, some ("climb.mp4", "video/mp4", 3)⟩
  | 1 => .complete (some sampleSource.id)
  | 2 => .createJob BackendWorld.sampleRequest
  | _ => .attempt sampleJob "attempt"

/-- The program of a call, with the id of the asset or of the job. -/
def sampleProgram : ℕ → SourceProg Unit
  | 0 => (sampleCalls 0).program sampleSettings sampleSource.id
  | i => (sampleCalls i).program sampleSettings sampleJob

def sampleInitial : SourceWorld ℕ where
  backend := { BackendWorld.sample with assets := fun _ => none }
  objects _ := none
  urls := []
  heads := []
  confirmed _ := none
  processed := []
  replies _ := none

def sampleAsset : Asset := pendingAsset sampleSource.id sampleProject "climb.mp4" "video/mp4" 3

/-- The asset has been inserted, and its URL answered. -/
def sampleAsked : SourceWorld ℕ :=
  { sampleInitial.setAsset sampleAsset.id sampleAsset with
    urls := [(sampleAsset.storageKey, "video/mp4")] }

/-- The requested bytes have been uploaded and confirmed. -/
def sampleCompleted : SourceWorld ℕ :=
  ((sampleProgram 1).advance (serve 1) 10
    (sampleAsked.setObject sampleAsset.storageKey (some ⟨[0, 1, 2], "video/mp4"⟩))).2

/-- Other bytes have replaced them, and a job has been asked for and attempted. -/
def sampleReplaced (bytes : List UInt8) : SourceWorld ℕ :=
  ((sampleProgram 3).advance (serve 3) 30 ((sampleProgram 2).advance (serve 2) 20
    (sampleCompleted.setObject sampleAsset.storageKey (some ⟨bytes, "video/mp4"⟩))).2).2


theorem sampleInitial_initial : sampleInitial.Initial := ⟨fun _ => rfl, rfl, rfl, fun _ => rfl, rfl⟩

/-- The upload, its completion, the replacement, the request and the attempt, one after another. -/
theorem reachable_sampleReplaced (admits : SourceWorld ℕ → String → ObjectData → Prop)
    (bytes : List UInt8)
    (hfirst : admits sampleAsked sampleAsset.storageKey ⟨[0, 1, 2], "video/mp4"⟩)
    (hsecond : admits sampleCompleted sampleAsset.storageKey ⟨bytes, "video/mp4"⟩) :
    ∃ c, (sourceCalls sampleSettings sampleCalls admits).Reachable sampleInitial c ∧
      c.shared = sampleReplaced bytes := by
  have hstart : ∀ i w, (sourceCalls sampleSettings sampleCalls admits).start i w (sampleProgram i) :=
    fun i _ => match i with
      | 0 => ⟨sampleSource.id, rfl⟩
      | _ + 1 => ⟨sampleJob, rfl⟩
  have hproject : (sourceCalls sampleSettings sampleCalls admits).Reachable sampleInitial
      ⟨sampleInitial, Function.update (fun _ => .ready) 0
        (.running (.call (.inr (.createSourceAsset sampleAsset)) _))⟩ :=
    Pool.Reachable.init.launch rfl (hstart 0 _) (serve_step 0) 1
  have hinserted : Step 0 sampleInitial (.inr (.createSourceAsset sampleAsset)) (Except.ok sampleAsset)
      (sampleInitial.setAsset sampleAsset.id sampleAsset) := SourceStep.created rfl fun _ _ => nofun
  have hcreate := hproject.call hinserted
  have hurl := hcreate.advance (serve_step 0) 1 rfl
  have hput := hurl.step (.env (.put (List.mem_cons_self ..) hfirst))
  have hcomplete := hput.launch (i := 1) rfl (hstart 1 _) (serve_step 1) 10
  have hreplace := hcomplete.step (.env (.put (List.mem_cons_self ..) hsecond))
  have hjob := hreplace.launch (i := 2) rfl (hstart 2 _) (serve_step 2) 20
  have hattempt := hjob.launch (i := 3) rfl (hstart 3 _) (serve_step 3) 30
  exact ⟨_, hattempt, rfl⟩

/-- **A replaced source is processed**: two bytes have replaced the three that were confirmed. -/
theorem replaced_processed : sampleInitial.Initial ∧
    ¬ ∀ c, (sourceCalls sampleSettings sampleCalls fun _ _ _ => True).Reachable sampleInitial c →
      ∀ source bytes, (source, bytes) ∈ c.shared.processed →
        (c.shared.confirmed source).map Confirmation.size = some (bytes.length : ℤ) := by
  refine ⟨sampleInitial_initial, fun hall => ?_⟩
  obtain ⟨c, hc, hshared⟩ := reachable_sampleReplaced (fun _ _ _ => True) [0, 1] trivial trivial
  have hmem : (sampleSource.id, [0, 1]) ∈ (sampleReplaced [0, 1]).processed := by decide +kernel
  have hsize : ((sampleReplaced [0, 1]).confirmed sampleSource.id).map Confirmation.size =
      some 3 := by decide +kernel
  have h := hall c hc sampleSource.id [0, 1] (hshared ▸ hmem)
  rw [hshared, hsize] at h
  exact absurd h (by decide)

/-- The confirmed bytes are processed, which have been uploaded a second time. -/
theorem processed_confirmed_sample :
    ∃ c, (sourceCalls sampleSettings sampleCalls KeepsConfirmed).Reachable sampleInitial c ∧
      (sampleSource.id, [0, 1, 2]) ∈ c.shared.processed ∧
      ∀ source bytes, (source, bytes) ∈ c.shared.processed →
        c.shared.confirmed source = some ⟨bytes.length, some bytes⟩ := by
  have hfirst : KeepsConfirmed sampleAsked sampleAsset.storageKey ⟨[0, 1, 2], "video/mp4"⟩ := by
    refine ⟨fun _ _ _ => nofun, fun id asset hasset _ _ hstate => ?_⟩
    obtain ⟨-, rfl⟩ | ⟨-, hasset⟩ := of_assets_setAsset hasset
    · cases hstate
    · cases hasset
  have hsecond :
      KeepsConfirmed sampleCompleted sampleAsset.storageKey ⟨[0, 1, 2], "video/mp4"⟩ := by
    refine ⟨fun id size _ htold => ?_, fun _ _ _ _ _ _ => by decide +kernel⟩
    have hheads : sampleCompleted.heads = [(sampleAsset.storageKey, 3)] := by decide +kernel
    rw [hheads, List.mem_singleton] at htold
    exact (Prod.mk.inj htold).2.symm
  obtain ⟨c, hc, hshared⟩ := reachable_sampleReplaced KeepsConfirmed [0, 1, 2] hfirst hsecond
  have hmem : (sampleSource.id, [0, 1, 2]) ∈ (sampleReplaced [0, 1, 2]).processed := by
    decide +kernel
  exact ⟨c, hc, hshared ▸ hmem, processed_confirmed sampleSettings sampleCalls sampleInitial_initial hc⟩

end SourceWorld

end BoulderFrame
