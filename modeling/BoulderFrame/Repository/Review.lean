import BoulderFrame.Repository.Operations

/-!
# Finalizing a review

The review statement writes the assets that it may write, links them, and removes the links of
other roles; the number of linked artifacts is compared after the commit. So a call that returns
has replaced the whole review, but a call that raises has left everything as it was only if no
artifact's key is blocked, or there was nothing to write.

## Main definitions

* `ReviewArtifact.StoredBy`, `ReviewArtifact.Blocked`: the asset of an artifact, and a key that the
  statement may not write
* `ReviewReplaced`, `ReviewAtomic`: the job's review is the given one; all of it or nothing is done
* `ReviewSettled`: the review statement has nothing to write

## Main results

* `reviewAssets_spec`: what the review statement does to the assets, key by key
* `ReviewAssets.replaced`: a review none of whose keys is blocked replaces the old one
* `finalizeReview_atomic_iff`: when a call does all or nothing
-/

namespace BoulderFrame

open PostgresJobRepository

/-! ## Keys of a review -/

theorem reviewName_injective : Function.Injective ReviewRole.reviewName := by
  intro role role' h
  cases role <;> cases role' <;> first | rfl | exact absurd h (by decide)

theorem reviewStorageKey_injective {projectId jobId reviewId : Uuid} {name name' : String}
    (h : reviewStorageKey projectId jobId reviewId name =
      reviewStorageKey projectId jobId reviewId name') : name = name' :=
  (String.append_right_inj _).mp h

/-- **The key of a review object** determines the project, the job, the review and the name. -/
theorem reviewStorageKey_inj {projectId projectId' jobId jobId' reviewId reviewId' : Uuid}
    {name name' : String} (h : reviewStorageKey projectId jobId reviewId name =
      reviewStorageKey projectId' jobId' reviewId' name') :
    projectId = projectId' ∧ jobId = jobId' ∧ reviewId = reviewId' ∧ name = name' :=
  Uuid.append_injective₃ h

/-- The key of an output is not that of a review object. -/
theorem outputStorageKey_ne_reviewStorageKey {projectId projectId' jobId jobId' reviewId : Uuid}
    {name : String} :
    outputStorageKey projectId jobId ≠ reviewStorageKey projectId' jobId' reviewId name := by
  intro h
  have htext : "private/output/" ++ projectId.text ++ "/" ++ jobId.text ++ ".mp4" =
    "private/debug/" ++ projectId'.text ++ "/" ++ jobId'.text ++ "/" ++ reviewId.text ++ "/" ++
      name := h
  simp only [String.append_assoc] at htext
  have houtput : 9 ≤ "private/output/".toList.length := by decide
  have hdebug : 9 ≤ "private/debug/".toList.length := by decide
  exact append_ne_of_take houtput hdebug (by decide) htext

namespace ReviewArtifact

variable (artifact : ReviewArtifact)

/-- The asset holds the artifact, for the project. -/
structure StoredBy (projectId : Uuid) (a : Asset) : Prop where
  kind : a.kind = .debug
  uploadState : a.uploadState = .uploaded
  projectId : a.projectId = projectId
  storageKey : a.storageKey = artifact.storageKey
  sizeBytes : a.sizeBytes = artifact.sizeBytes
  contentType : a.contentType = some artifact.contentType

/-- The artifact's key belongs to an asset that may not be overwritten. -/
def Blocked (projectId : Uuid) (t : AssetTable) : Prop :=
  ∃ a, t.lookup artifact.storageKey = some a ∧ a.overwritable projectId .debug = false

variable {artifact} {projectId newId : Uuid} {t t' : AssetTable} {out : Option Asset}

/-- An upsert of a blocked artifact does nothing. -/
theorem upsert_blocked (hblocked : artifact.Blocked projectId t)
    (h : t.upsert (artifact.row newId projectId) artifact.merge
      (Asset.overwritable projectId .debug) = some (t', out)) : t' = t ∧ out = none := by
  obtain ⟨a, ha, hno⟩ := hblocked
  rw [KeyedTable.upsert_of_some ha, if_neg (by rw [hno]; nofun)] at h
  obtain ⟨rfl, rfl⟩ := Prod.mk.inj (Option.some.inj h)
  exact ⟨rfl, rfl⟩

/-- An upsert of an artifact that is not blocked stores it. -/
theorem upsert_stored (hfree : ¬ artifact.Blocked projectId t)
    (h : t.upsert (artifact.row newId projectId) artifact.merge
      (Asset.overwritable projectId .debug) = some (t', out)) :
    ∃ a, out = some a ∧ t'.lookup artifact.storageKey = some a ∧ artifact.StoredBy projectId a := by
  obtain ⟨old, hold, hall, -, hout⟩ | ⟨old, hold, hno, -, -⟩ | ⟨-, -, hout⟩ :=
    KeyedTable.upsert_cases h
  · obtain ⟨hproject, hkind, hstate⟩ := of_decide_eq_true hall
    exact ⟨_, hout, KeyedTable.lookup_upsert_of_some (hout ▸ h),
      ⟨hkind, hstate, hproject, (KeyedTable.lookup_eq_some.mp hold).2, rfl, rfl⟩⟩
  · exact absurd ⟨old, hold, hno⟩ hfree
  · exact ⟨_, hout, KeyedTable.lookup_upsert_of_some (hout ▸ h), ⟨rfl, rfl, rfl, rfl, rfl, rfl⟩⟩

end ReviewArtifact

/-! ## The assets of a review -/

section ReviewAssets

variable {projectId : Uuid} {newId : ReviewRole → Uuid} {artifacts : List ReviewArtifact}
  {t t' : AssetTable} {linked : List (ReviewRole × Uuid)}

theorem reviewAssets_cons {artifact : ReviewArtifact}
    (h : reviewAssets projectId newId (artifact :: artifacts) t = some (t', linked)) :
    ∃ t₁ out linked₁, t.upsert (artifact.row (newId artifact.role) projectId) artifact.merge
        (Asset.overwritable projectId .debug) = some (t₁, out) ∧
      reviewAssets projectId newId artifacts t₁ = some (t', linked₁) ∧
      linked = match out with
        | none => linked₁
        | some a => (artifact.role, a.id) :: linked₁ := by
  obtain ⟨⟨t₁, out⟩, hupsert, h⟩ := Option.bind_eq_some_iff.mp h
  obtain ⟨⟨t₂, linked₁⟩, hrest, h⟩ := Option.bind_eq_some_iff.mp h
  refine ⟨t₁, out, linked₁, hupsert, ?_⟩
  cases out with
  | none =>
    obtain ⟨rfl, rfl⟩ := Prod.mk.inj (Option.some.inj h)
    exact ⟨hrest, rfl⟩
  | some a =>
    obtain ⟨rfl, rfl⟩ := Prod.mk.inj (Option.some.inj h)
    exact ⟨hrest, rfl⟩

/-- The statement returns if the ids that it draws are new. -/
theorem reviewAssets_total (hids : Function.Injective newId)
    (hroles : (artifacts.map (·.role)).Nodup)
    (hnew : ∀ a ∈ t.rows, ∀ artifact ∈ artifacts, a.id ≠ newId artifact.role) :
    ∃ t' linked, reviewAssets projectId newId artifacts t = some (t', linked) := by
  induction artifacts generalizing t with
  | nil => exact ⟨t, [], rfl⟩
  | cons artifact artifacts ih =>
    obtain ⟨hrole, hroles⟩ := List.nodup_cons.mp hroles
    have hp : newId artifact.role ∉ t.rows.map (·.id) := by
      intro hmem
      obtain ⟨a, ha, hid⟩ := List.mem_map.mp hmem
      exact hnew a ha artifact List.mem_cons_self hid
    obtain ⟨t₁, out, hupsert⟩ : ∃ t₁ out, t.upsert (artifact.row (newId artifact.role) projectId)
        artifact.merge (Asset.overwritable projectId .debug) = some (t₁, out) :=
      KeyedTable.upsert_total artifact.merge _ hp
    have hnew₁ : ∀ a ∈ t₁.rows, ∀ other ∈ artifacts, a.id ≠ newId other.role := by
      refine KeyedTable.forall_mem_upsert hupsert
        (fun a ha other hother => hnew a ha other (List.mem_cons_of_mem _ hother))
        (fun other hother hid => ?_) fun _ ha => ha
      exact hrole (List.mem_map.mpr ⟨other, hother, (hids hid).symm⟩)
    obtain ⟨t', linked, hrest⟩ := ih hroles hnew₁
    refine ⟨t', (out.map fun a => (artifact.role, a.id)).toList ++ linked, ?_⟩
    simp only [reviewAssets, hupsert, hrest, Option.bind_eq_bind, Option.bind_some]
    cases out with
    | none => rfl
    | some a => rfl

/-- What the review statement does to the assets and which roles it links, key by key. -/
structure ReviewAssets (projectId : Uuid) (artifacts : List ReviewArtifact) (t t' : AssetTable)
    (linked : List (ReviewRole × Uuid)) : Prop where
  other : ∀ key ∉ artifacts.map (·.storageKey), t'.lookup key = t.lookup key
  blocked : ∀ artifact ∈ artifacts, artifact.Blocked projectId t →
    t'.lookup artifact.storageKey = t.lookup artifact.storageKey ∧
      linked.lookup artifact.role = none
  stored : ∀ artifact ∈ artifacts, ¬ artifact.Blocked projectId t →
    ∃ a, t'.lookup artifact.storageKey = some a ∧ artifact.StoredBy projectId a ∧
      linked.lookup artifact.role = some a.id
  roles : ∀ role ∉ artifacts.map (·.role), linked.lookup role = none
  length_le : linked.length ≤ artifacts.length
  length_eq : linked.length = artifacts.length ↔
    ∀ artifact ∈ artifacts, ¬ artifact.Blocked projectId t

/-- **The review statement**, one artifact after the other: no key is written twice. -/
theorem reviewAssets_spec (hroles : (artifacts.map (·.role)).Nodup)
    (hkeys : (artifacts.map (·.storageKey)).Nodup)
    (h : reviewAssets projectId newId artifacts t = some (t', linked)) :
    ReviewAssets projectId artifacts t t' linked := by
  induction artifacts generalizing t linked with
  | nil =>
    obtain ⟨rfl, rfl⟩ := Prod.mk.inj (Option.some.inj h)
    exact ⟨fun _ _ => rfl, fun _ => nofun, fun _ => nofun, fun _ _ => rfl, le_rfl, by simp⟩
  | cons artifact artifacts ih =>
    obtain ⟨hrole, hroles⟩ := List.nodup_cons.mp hroles
    obtain ⟨hkey, hkeys⟩ := List.nodup_cons.mp hkeys
    obtain ⟨t₁, out, linked₁, hupsert, hrest, hlinked⟩ := reviewAssets_cons h
    have hspec := ih hroles hkeys hrest
    -- the first artifact leaves the keys of the others
    have hother : ∀ key, key ≠ artifact.storageKey → t₁.lookup key = t.lookup key :=
      fun key hne => KeyedTable.lookup_upsert_of_ne hupsert hne
    have hne : ∀ b ∈ artifacts, b.storageKey ≠ artifact.storageKey := fun b hb heq =>
      hkey (List.mem_map.mpr ⟨b, hb, heq⟩)
    have hblocked : ∀ b ∈ artifacts, b.Blocked projectId t₁ ↔ b.Blocked projectId t := fun b hb => by
      unfold ReviewArtifact.Blocked
      rw [hother _ (hne b hb)]
    have hrole' : ∀ b ∈ artifacts, (b.role == artifact.role) = false := fun b hb =>
      beq_eq_false_iff_ne.mpr fun heq => hrole (List.mem_map.mpr ⟨b, hb, heq⟩)
    by_cases hfirst : artifact.Blocked projectId t
    · obtain ⟨rfl, rfl⟩ := ReviewArtifact.upsert_blocked hfirst hupsert
      obtain rfl : linked = linked₁ := hlinked
      exact
        { other := fun key hk => by
            obtain ⟨-, hk⟩ := not_or.mp (List.mem_cons.not.mp hk)
            exact hspec.other key hk
          blocked := fun b hb hbb => by
            obtain rfl | hb := List.mem_cons.mp hb
            · exact ⟨hspec.other _ hkey, hspec.roles _ hrole⟩
            · exact hspec.blocked b hb hbb
          stored := fun b hb hbb => by
            obtain rfl | hb := List.mem_cons.mp hb
            · exact absurd hfirst hbb
            · exact hspec.stored b hb hbb
          roles := fun role hr => by
            obtain ⟨-, hr⟩ := not_or.mp (List.mem_cons.not.mp hr)
            exact hspec.roles role hr
          length_le := hspec.length_le.trans (Nat.le_succ _)
          length_eq := by
            refine iff_of_false (fun heq => ?_) fun hfree =>
              hfree artifact List.mem_cons_self hfirst
            have hle := hspec.length_le
            rw [heq, List.length_cons] at hle
            omega }
    · obtain ⟨a, rfl, hlookup, hstored⟩ := ReviewArtifact.upsert_stored hfirst hupsert
      obtain rfl : linked = (artifact.role, a.id) :: linked₁ := hlinked
      exact
        { other := fun key hk => by
            obtain ⟨hk₁, hk⟩ := not_or.mp (List.mem_cons.not.mp hk)
            exact (hspec.other key hk).trans (hother key hk₁)
          blocked := fun b hb hbb => by
            obtain rfl | hb := List.mem_cons.mp hb
            · exact absurd hbb hfirst
            · obtain ⟨hl, hr⟩ := hspec.blocked b hb ((hblocked b hb).mpr hbb)
              exact ⟨hl.trans (hother _ (hne b hb)), by rw [List.lookup_cons, hrole' b hb, hr]⟩
          stored := fun b hb hbb => by
            obtain rfl | hb := List.mem_cons.mp hb
            · exact ⟨a, (hspec.other _ hkey).trans hlookup, hstored, by simp⟩
            · obtain ⟨a', hl, hs, hr⟩ := hspec.stored b hb fun hb' => hbb ((hblocked b hb).mp hb')
              exact ⟨a', hl, hs, by rw [List.lookup_cons, hrole' b hb, hr]⟩
          roles := fun role hr => by
            obtain ⟨hr₁, hr⟩ := not_or.mp (List.mem_cons.not.mp hr)
            rw [List.lookup_cons, beq_eq_false_iff_ne.mpr hr₁]
            exact hspec.roles role hr
          length_le := Nat.succ_le_succ hspec.length_le
          length_eq := by
            rw [List.length_cons, List.length_cons, Nat.succ_inj, hspec.length_eq,
              List.forall_mem_cons]
            exact ⟨fun hall => ⟨hfirst, fun b hb => (hblocked b hb).not.mp (hall b hb)⟩,
              fun hall b hb => (hblocked b hb).not.mpr (hall.2 b hb)⟩ }

/-- The statement writes nothing to the assets if every artifact is blocked or stored already. -/
theorem reviewAssets_eq_self (hall : ∀ artifact ∈ artifacts, artifact.Blocked projectId t ∨
      ∃ a, t.lookup artifact.storageKey = some a ∧ a.sizeBytes = artifact.sizeBytes ∧
        a.contentType = some artifact.contentType)
    (h : reviewAssets projectId newId artifacts t = some (t', linked)) : t' = t := by
  induction artifacts generalizing linked with
  | nil =>
    obtain ⟨rfl, -⟩ := Prod.mk.inj (Option.some.inj h)
    rfl
  | cons artifact artifacts ih =>
    obtain ⟨hfirst, hall⟩ := List.forall_mem_cons.mp hall
    obtain ⟨t₁, out, linked₁, hupsert, hrest, -⟩ := reviewAssets_cons h
    obtain rfl : t₁ = t := by
      obtain hblocked | ⟨a, ha, hsize, htype⟩ := hfirst
      · exact (ReviewArtifact.upsert_blocked hblocked hupsert).1
      · rw [KeyedTable.upsert_of_some ha] at hupsert
        split_ifs at hupsert
        · obtain ⟨rfl, -⟩ := Prod.mk.inj (Option.some.inj hupsert)
          refine KeyedTable.modify_eq_self fun b hb => ?_
          obtain rfl := Option.some.inj (ha.symm.trans hb)
          simp only [ReviewArtifact.merge, ← hsize, ← htype]
        · exact (Prod.mk.inj (Option.some.inj hupsert)).1.symm
    exact ih hall hrest

end ReviewAssets

/-! ## The whole call -/

/-- The job's review is the given one: exactly its roles are linked, each to the asset that stores
its artifact, and nothing else has changed. -/
structure ReviewReplaced (projectId jobId : Uuid) (artifacts : List ReviewArtifact)
    (db db' : Database) : Prop where
  linked : ∀ artifact ∈ artifacts, ∃ a ∈ db'.assets.rows, artifact.StoredBy projectId a ∧
    db'.artifacts jobId (.review artifact.role) = some a.id
  roles : ∀ role, (db'.artifacts jobId (.review role)).isSome ↔ role ∈ artifacts.map (·.role)
  otherLinks : ∀ i kind, i ≠ jobId ∨ kind = .output → db'.artifacts i kind = db.artifacts i kind
  otherAssets : ∀ a : Asset, a.storageKey ∉ artifacts.map (·.storageKey) →
    (a ∈ db'.assets.rows ↔ a ∈ db.assets.rows)

/-- A call does all or nothing: it returns with the review replaced in the job's project, or it
raises with the assets and artifacts as they were. -/
def ReviewAtomic (record : JobRecord) (reviewId : Uuid) (artifacts : List ReviewArtifact)
    (newId : ReviewRole → Uuid) (now : Time) (db : Database) : Prop :=
  match finalizeReview record reviewId artifacts newId now db with
  | (.ok (), db') =>
    ∃ row, db.jobs record.id = some row ∧ ReviewReplaced row.projectId record.id artifacts db db'
  | (.error _, db') => db'.assets = db.assets ∧ db'.artifacts = db.artifacts

/-- The review statement has nothing to write: each artifact is blocked, or stored and linked
already, and no other review role is linked. -/
def ReviewSettled (projectId jobId : Uuid) (artifacts : List ReviewArtifact) (db : Database) :
    Prop :=
  (∀ artifact ∈ artifacts, artifact.Blocked projectId db.assets ∨
    ∃ a, db.assets.lookup artifact.storageKey = some a ∧ a.sizeBytes = artifact.sizeBytes ∧
      a.contentType = some artifact.contentType ∧
      db.artifacts jobId (.review artifact.role) = some a.id) ∧
  ∀ role ∉ artifacts.map (·.role), db.artifacts jobId (.review role) = none

/-- The ids that are drawn for new assets are different, and new. -/
structure FreshIds (newId : ReviewRole → Uuid) (t : AssetTable) : Prop where
  injective : Function.Injective newId
  new : ∀ a ∈ t.rows, ∀ role, a.id ≠ newId role

section Calls

variable {record : JobRecord} {reviewId : Uuid} {artifacts : List ReviewArtifact}
  {newId : ReviewRole → Uuid} {now : Time} {db : Database} {owner : String} {source : SourceAsset}

/-- Artifacts that pass the checks have different keys. -/
theorem nodup_keys (hchecks : reviewChecks record reviewId artifacts = .ok (owner, source)) :
    (artifacts.map (·.storageKey)).Nodup := by
  obtain ⟨-, -, -, -, hroles, hkeys⟩ := reviewChecks_eq_ok.mp hchecks
  have hmap : artifacts.map (·.storageKey) = (artifacts.map (·.role)).map fun role =>
      reviewStorageKey source.projectId record.id reviewId role.reviewName := by
    rw [List.map_map]
    exact List.map_congr_left hkeys
  rw [hmap]
  exact hroles.map fun role role' h => reviewName_injective (reviewStorageKey_injective h)

/-- The links after the review statement, by role. -/
theorem ReviewAssets.links {projectId : Uuid} {t' : AssetTable}
    {linked : List (ReviewRole × Uuid)}
    (h : ReviewAssets projectId artifacts db.assets t' linked)
    (links : ArtifactKind → Option Uuid) :
    (∀ artifact ∈ artifacts, ¬ artifact.Blocked projectId db.assets →
      ∃ a, t'.lookup artifact.storageKey = some a ∧ artifact.StoredBy projectId a ∧
        reviewLinks (artifacts.map (·.role)) linked links (.review artifact.role) = some a.id) ∧
    (∀ artifact ∈ artifacts, artifact.Blocked projectId db.assets →
      reviewLinks (artifacts.map (·.role)) linked links (.review artifact.role) =
        links (.review artifact.role)) ∧
    ∀ role ∉ artifacts.map (·.role),
      reviewLinks (artifacts.map (·.role)) linked links (.review role) = none := by
  refine ⟨fun artifact hmem hfree => ?_, fun artifact hmem hblocked => ?_, fun role hrole => ?_⟩
  · obtain ⟨a, ha, hstored, hlinked⟩ := h.stored artifact hmem hfree
    exact ⟨a, ha, hstored, by simp only [reviewLinks, hlinked]⟩
  · simp only [reviewLinks, (h.blocked artifact hmem hblocked).2]
    exact if_pos (List.mem_map_of_mem hmem)
  · simp only [reviewLinks, h.roles role hrole]
    exact if_neg hrole

/-- **A complete review** replaces the links of the job. -/
theorem ReviewAssets.replaced {projectId : Uuid} {t' : AssetTable}
    {linked : List (ReviewRole × Uuid)}
    (h : ReviewAssets projectId artifacts db.assets t' linked)
    (hfree : ∀ artifact ∈ artifacts, ¬ artifact.Blocked projectId db.assets) :
    ReviewReplaced projectId record.id artifacts db
      (linkReview db record.id (artifacts.map (·.role)) t' linked) := by
  obtain ⟨hstored, -, hnone⟩ := h.links (db.artifacts record.id)
  refine ⟨fun artifact hmem => ?_, fun role => ?_, fun i kind hother => ?_, fun a ha => ?_⟩
  · obtain ⟨a, ha, hs, hl⟩ := hstored artifact hmem (hfree artifact hmem)
    exact ⟨a, (KeyedTable.lookup_eq_some.mp ha).1, hs,
      by rw [linkReview_artifacts_self, hl]⟩
  · rw [linkReview_artifacts_self]
    constructor
    · intro hsome
      by_contra hrole
      rw [hnone role hrole] at hsome
      cases hsome
    · intro hrole
      obtain ⟨artifact, hmem, rfl⟩ := List.mem_map.mp hrole
      obtain ⟨a, -, -, hl⟩ := hstored artifact hmem (hfree artifact hmem)
      rw [hl]
      rfl
  · by_cases hi : i = record.id
    · obtain rfl := hother.resolve_left (not_not.mpr hi)
      rw [hi, linkReview_artifacts_self]
      rfl
    · rw [linkReview_artifacts_of_ne _ _ _ _ hi]
  · have hlookup := h.other a.storageKey ha
    constructor
    · intro hmem
      exact (KeyedTable.lookup_eq_some.mp
        (hlookup.symm.trans (KeyedTable.lookup_eq_some.mpr ⟨hmem, rfl⟩))).1
    · intro hmem
      exact (KeyedTable.lookup_eq_some.mp
        (hlookup.trans (KeyedTable.lookup_eq_some.mpr ⟨hmem, rfl⟩))).1

/-- **An incomplete review** leaves everything as it was exactly if there is nothing to write. -/
theorem ReviewAssets.unchanged_iff {projectId : Uuid} {t' : AssetTable}
    {linked : List (ReviewRole × Uuid)}
    (hassets : reviewAssets projectId newId artifacts db.assets = some (t', linked))
    (h : ReviewAssets projectId artifacts db.assets t' linked) :
    ((linkReview db record.id (artifacts.map (·.role)) t' linked).assets = db.assets ∧
      (linkReview db record.id (artifacts.map (·.role)) t' linked).artifacts = db.artifacts) ↔
      ReviewSettled projectId record.id artifacts db := by
  obtain ⟨hstored, hblocked, hnone⟩ := h.links (db.artifacts record.id)
  constructor
  · rintro ⟨hsame, hlinks⟩
    have hlinks' : reviewLinks (artifacts.map (·.role)) linked (db.artifacts record.id) =
        db.artifacts record.id := by
      have := congrFun hlinks record.id
      rwa [linkReview_artifacts_self] at this
    refine ⟨fun artifact hmem => ?_, fun role hrole => ?_⟩
    · refine or_iff_not_imp_left.mpr fun hfree => ?_
      obtain ⟨a, ha, hs, hl⟩ := hstored artifact hmem hfree
      exact ⟨a, (congrArg (·.lookup artifact.storageKey) hsame).symm.trans ha, hs.sizeBytes,
        hs.contentType, by rw [← hlinks', hl]⟩
    · rw [← hlinks', hnone role hrole]
  · rintro ⟨hall, hroles⟩
    have ht' : t' = db.assets := reviewAssets_eq_self
      (fun artifact hmem => (hall artifact hmem).imp_right
        fun ⟨a, ha, hsize, htype, _⟩ => ⟨a, ha, hsize, htype⟩) hassets
    refine ⟨ht', ?_⟩
    have hlinks : reviewLinks (artifacts.map (·.role)) linked (db.artifacts record.id) =
        db.artifacts record.id := by
      funext kind
      cases kind with
      | output => rfl
      | review role =>
        by_cases hrole : role ∈ artifacts.map (·.role)
        · obtain ⟨artifact, hmem, rfl⟩ := List.mem_map.mp hrole
          by_cases hfree : artifact.Blocked projectId db.assets
          · exact hblocked artifact hmem hfree
          · obtain ⟨a, ha, hs, hl⟩ := hstored artifact hmem hfree
            obtain ⟨b, hb, -, -, hlb⟩ := (hall artifact hmem).resolve_left hfree
            obtain rfl := Option.some.inj (ha.symm.trans (ht' ▸ hb))
            exact hl.trans hlb.symm
        · exact (hnone role hrole).trans (hroles role hrole).symm
    simp only [linkReview, hlinks, Function.update_eq_self]

/-- When a call does all or nothing: if the record owns its unfinished job and the sizes fit, no
artifact is blocked or there is nothing to write. -/
def ReviewWhole (record : JobRecord) (owner : String) (source : SourceAsset)
    (artifacts : List ReviewArtifact) (now : Time) (db : Database) : Prop :=
  ∀ row, db.jobs record.id = some row → ownsUnfinished source.projectId owner now row →
    (∀ artifact ∈ artifacts, artifact.sizeBytes ≤ bigintMax) →
    (∀ artifact ∈ artifacts, ¬ artifact.Blocked row.projectId db.assets) ∨
      ReviewSettled row.projectId record.id artifacts db

/-- The call of an owner, by what its statement does to the assets. -/
theorem finalizeReview_of_owned {row : JobRow} {t' : AssetTable}
    {linked : List (ReviewRole × Uuid)}
    (hchecks : reviewChecks record reviewId artifacts = .ok (owner, source))
    (hrow : db.jobs record.id = some row) (howns : ownsUnfinished source.projectId owner now row)
    (hsizes : ∀ artifact ∈ artifacts, artifact.sizeBytes ≤ bigintMax)
    (hassets : reviewAssets row.projectId newId artifacts db.assets = some (t', linked)) :
    finalizeReview record reviewId artifacts newId now db =
      (if linked.length = artifacts.length then .ok () else .error jobStateChanged,
        linkReview db record.id (artifacts.map (·.role)) t' linked) := by
  simp only [finalizeReview, hchecks, finalizeReviewSql, hrow, if_neg (not_not.mpr howns),
    if_neg (not_not.mpr hsizes), hassets, linkReview]

/-- **When a review is finalized atomically.** With arguments that pass the checks and new ids, a
call does all or nothing exactly in the states of `ReviewWhole`: a blocked key leaves a review
that is neither the old one nor the new one. -/
theorem finalizeReview_atomic_iff
    (hchecks : reviewChecks record reviewId artifacts = .ok (owner, source))
    (hids : FreshIds newId db.assets) :
    ReviewAtomic record reviewId artifacts newId now db ↔
      ReviewWhole record owner source artifacts now db := by
  by_cases hown : ∃ row, db.jobs record.id = some row ∧
      ownsUnfinished source.projectId owner now row ∧
      ∀ artifact ∈ artifacts, artifact.sizeBytes ≤ bigintMax
  · obtain ⟨row, hrow, howns, hsizes⟩ := hown
    obtain ⟨-, -, -, -, hroles, -⟩ := reviewChecks_eq_ok.mp hchecks
    obtain ⟨t', linked, hassets⟩ : ∃ t' linked,
        reviewAssets row.projectId newId artifacts db.assets = some (t', linked) :=
      reviewAssets_total hids.injective hroles fun a ha artifact _ => hids.new a ha artifact.role
    have hspec := reviewAssets_spec hroles (nodup_keys hchecks) hassets
    have hwhole : ReviewWhole record owner source artifacts now db ↔
        (∀ artifact ∈ artifacts, ¬ artifact.Blocked row.projectId db.assets) ∨
          ReviewSettled row.projectId record.id artifacts db := by
      constructor
      · exact fun h => h row hrow howns hsizes
      · intro h row' hrow' _ _
        obtain rfl := Option.some.inj (hrow.symm.trans hrow')
        exact h
    rw [hwhole, ReviewAtomic, finalizeReview_of_owned hchecks hrow howns hsizes hassets]
    by_cases hcount : linked.length = artifacts.length
    · have hfree := hspec.length_eq.mp hcount
      rw [if_pos hcount]
      exact iff_of_true ⟨row, hrow, hspec.replaced hfree⟩ (.inl hfree)
    · rw [if_neg hcount]
      exact (hspec.unchanged_iff hassets).trans
        (or_iff_right (hspec.length_eq.not.mp hcount)).symm
  · have hcases := finalizeReview_cases
      (Prod.eta (finalizeReview record reviewId artifacts newId now db)).symm
    obtain ⟨⟨e, he, -⟩, hdb⟩ | ⟨owner', source', row, t', linked, hchecks', hrow, howns, hsizes, -⟩ :=
      hcases
    · refine iff_of_true ?_ fun row hrow howns hsizes => absurd ⟨row, hrow, howns, hsizes⟩ hown
      rw [ReviewAtomic, ← Prod.eta (finalizeReview record reviewId artifacts newId now db), he, hdb]
      exact ⟨rfl, rfl⟩
    · obtain ⟨rfl, rfl⟩ := Prod.mk.inj (Except.ok.inj (hchecks'.symm.trans hchecks))
      exact absurd ⟨row, hrow, howns, hsizes⟩ hown

end Calls

/-! ## A blocked key -/

def sampleReview : Uuid := ⟨"3d8f0a57-6f3c-4d55-9d5e-8a1c6b2e7f64", by decide⟩

/-- The key of an artifact of the sample job's review. -/
def sampleKey (role : ReviewRole) : String :=
  reviewStorageKey sampleProject sampleJob sampleReview role.reviewName

/-- A telemetry and a manifest. -/
def sampleArtifacts : List ReviewArtifact :=
  [⟨.debugTelemetry, sampleKey .debugTelemetry, 512, "application/gzip", by decide, rfl⟩,
    ⟨.debugManifest, sampleKey .debugManifest, 256, "application/json", by decide, rfl⟩]

/-- The row of a job whose rendering an attempt has claimed. -/
def renderingRow : JobRow :=
  { sampleRow with
    state := .rendering
    stage := .rendering
    progress := 75
    startedAt := some 0
    leaseOwner := some "attempt"
    leaseExpiresAt := some 60000000 }

/-- The manifest's key belongs to an asset whose upload is invalid. -/
def takenManifest : Asset :=
  { sampleSource with
    id := ⟨"7b1f3a0c-0a44-4a0e-8f0b-5a9f2c1d6e83", by decide⟩
    kind := .debug
    storageKey := sampleKey .debugManifest
    uploadState := .invalid }

def blockedDatabase : Database where
  jobs id := if id = sampleJob then some renderingRow else none
  assets := ⟨[sampleSource, takenManifest], by decide, by decide⟩
  artifacts _ _ := none

def renderingRecord : JobRecord := recordFromRow sampleJob renderingRow sampleSource

def sampleIds : ReviewRole → Uuid
  | .debugTelemetry => ⟨"51d2a7c0-7d0e-4e57-8c1f-4b7a9e3d2f01", by decide⟩
  | .debugManifest => ⟨"51d2a7c0-7d0e-4e57-8c1f-4b7a9e3d2f02", by decide⟩
  | .debugDetection => ⟨"51d2a7c0-7d0e-4e57-8c1f-4b7a9e3d2f03", by decide⟩
  | .debugFraming => ⟨"51d2a7c0-7d0e-4e57-8c1f-4b7a9e3d2f04", by decide⟩
  | .debugRender => ⟨"51d2a7c0-7d0e-4e57-8c1f-4b7a9e3d2f05", by decide⟩

theorem sampleIds_injective : Function.Injective sampleIds := by
  intro role role' h
  cases role <;> cases role' <;> first | rfl | exact absurd h (by decide)

theorem sampleIds_fresh : FreshIds sampleIds blockedDatabase.assets where
  injective := sampleIds_injective
  new a ha role := by
    obtain rfl | ha := List.mem_cons.mp ha
    · cases role <;> decide
    · obtain rfl := List.mem_singleton.mp ha
      cases role <;> decide

theorem blockedDatabase_consistent : blockedDatabase.Consistent := by
  have hjob : ∀ {id row}, blockedDatabase.jobs id = some row → row = renderingRow := fun h =>
    (Option.some.inj (Option.ite_none_right_eq_some.mp h).2).symm
  refine ⟨fun id row h => ?_, fun id row asset h ha => ?_, fun id row h => ?_, fun _ _ _ => nofun,
    by decide⟩
  · exact ⟨sampleSource, List.mem_cons_self, by rw [hjob h]; rfl⟩
  · rw [hjob h] at ha
    cases ha
  · rw [hjob h]
    decide

theorem finalizeReview_atomic_iff_blocked :
    ReviewAtomic renderingRecord sampleReview sampleArtifacts sampleIds 0 blockedDatabase ↔
      ReviewWhole renderingRecord "attempt" ⟨sampleSource.id, sampleProject⟩ sampleArtifacts 0
        blockedDatabase :=
  finalizeReview_atomic_iff (by rfl) sampleIds_fresh

/-- The call raises, with the telemetry linked and the manifest not. -/
theorem finalizeReview_partial : blockedDatabase.Consistent ∧
    FreshIds sampleIds blockedDatabase.assets ∧
    reviewChecks renderingRecord sampleReview sampleArtifacts =
      .ok ("attempt", ⟨sampleSource.id, sampleProject⟩) ∧
    ¬ ReviewAtomic renderingRecord sampleReview sampleArtifacts sampleIds 0 blockedDatabase := by
  refine ⟨blockedDatabase_consistent, sampleIds_fresh, by rfl, fun h => ?_⟩
  have hlink : blockedDatabase.artifacts sampleJob (.review .debugTelemetry) =
      some (sampleIds .debugTelemetry) := by
    rw [← show _ = blockedDatabase.artifacts from h.2]
    rfl
  cases hlink

end BoulderFrame
