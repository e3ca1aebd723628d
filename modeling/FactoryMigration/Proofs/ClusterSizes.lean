import FactoryMigration.Activity.Definition
import FactoryMigration.Proofs.CompactText
import FactoryMigration.Proofs.PolicyFields
import FactoryMigration.Proofs.TimeoutLanguage

set_option autoImplicit false

/-! # Sizes of clusters

The linked service of an activity sizes its cluster: by a count, by two counts with a colon between
them, or not at all. Whatever else is in the place of a size leaves the activity without a cluster, with
one note (`Task.clusterOf_cases`). -/

namespace FactoryMigration

/-! ## Sizes -/

namespace Workers

/-- The text writes a size: a count, or two counts with a colon between them and blanks around them, of
which the first one is not the greater one. -/
inductive Writes : List Char → Workers → Prop where
  | fixed {cs : List Char} {count : Nat} (h : Text.WritesCount Text.limit32 cs count) :
      Writes cs (.fixed count)
  | autoscale {before behind : List Char} {least greatest : Nat}
      (hleast : Text.WritesCount Text.limit32 (Text.trim before) least)
      (hgreatest : Text.WritesCount Text.limit32 (Text.trim behind) greatest)
      (hle : least ≤ greatest) : Writes (before ++ ':' :: behind) (.autoscale least greatest)

/-- What a field says of the size of a cluster. A field that is missing or null leaves it open. -/
inductive Gives : Option Json → Option Workers → Prop where
  | missing : Gives none none
  | null : Gives (some .null) none
  | number {number : Number} {count : Nat}
      (h : Text.WritesCount Text.limit32 number.text.toList count) :
      Gives (some (.num number)) (some (.fixed count))
  | text {s : String} {workers : Workers} (h : Writes (Text.trim s.toList) workers) :
      Gives (some (.str s)) (some workers)

theorem count?_eq_some_iff {cs : List Char} {n : Nat} :
    count? cs = some n ↔ Text.WritesCount Text.limit32 (Text.trim cs) n :=
  Text.count?_eq_some_iff

theorem colon_not_mem {cs : List Char} {n : Nat} (h : Text.WritesCount Text.limit32 cs n) :
    ':' ∉ cs :=
  h.not_mem (by decide) (by decide)

theorem colon_not_mem_of_trim {cs : List Char} {n : Nat}
    (h : Text.WritesCount Text.limit32 (Text.trim cs) n) : ':' ∉ cs :=
  fun hmem => colon_not_mem h (Text.mem_trim_of_mem (by decide) hmem)

theorem ofText_eq_ok_iff {raw : Json} {cs : List Char} {workers : Workers} :
    ofText raw cs = .ok workers ↔ Writes cs workers := by
  unfold ofText
  constructor
  · intro h
    split at h
    · rename_i before behind hcut
      obtain ⟨rfl, -⟩ := Text.cutFirst_eq_some_iff.mp hcut
      split at h
      · rename_i least greatest hleast hgreatest
        split at h
        · rename_i hle
          obtain rfl := Except.ok.inj h
          exact .autoscale (count?_eq_some_iff.mp hleast) (count?_eq_some_iff.mp hgreatest) hle
        · cases h
      · cases h
    · split at h
      · rename_i count hcount
        obtain rfl := Except.ok.inj h
        exact .fixed (Text.count?_eq_some_iff.mp hcount)
      · cases h
  · intro h
    cases h with
    | fixed h =>
      rw [Text.cutFirst_eq_none_iff.mpr (colon_not_mem h)]
      simp only [Text.count?_eq_some_iff.mpr h]
    | autoscale hleast hgreatest hle =>
      rw [Text.cutFirst_append (colon_not_mem_of_trim hleast)]
      simp only [count?_eq_some_iff.mpr hleast, count?_eq_some_iff.mpr hgreatest, if_pos hle]

/-- A number has no colon, so it can only be a count. -/
theorem writes_number_iff {number : Number} {workers : Workers} :
    Writes number.text.toList workers ↔
      ∃ count, workers = .fixed count ∧ Text.WritesCount Text.limit32 number.text.toList count := by
  constructor
  · intro h
    generalize hcs : number.text.toList = cs at h
    cases h with
    | fixed h => exact ⟨_, rfl, h⟩
    | autoscale hleast hgreatest hle =>
      have hmark := number.isMark_of_mem_text ':' (by rw [hcs]; simp)
      exact absurd hmark (by decide)
  · rintro ⟨count, rfl, h⟩
    exact .fixed h

theorem map_some_eq_ok_iff {read : Except Obstacle Workers} {workers : Option Workers} :
    read.map some = .ok workers ↔ ∃ size, read = .ok size ∧ workers = some size := by
  cases read with
  | error obstacle => exact ⟨nofun, fun ⟨_, h, _⟩ => nomatch h⟩
  | ok size =>
    constructor
    · intro h
      exact ⟨size, rfl, (Except.ok.inj h).symm⟩
    · rintro ⟨_, hsize, rfl⟩
      obtain rfl := Except.ok.inj hsize
      rfl

/-- **Sizes.** A size is read exactly from the fields that give it. -/
theorem ofValue_eq_ok_iff {field : Option Json} {workers : Option Workers} :
    ofValue (field.filter (!·.isNull)) = .ok workers ↔ Gives field workers := by
  rcases field with _ | field
  · constructor
    · intro h
      obtain rfl := Except.ok.inj h
      exact .missing
    · intro h
      cases h
      rfl
  · cases field with
    | null =>
      constructor
      · intro h
        obtain rfl := Except.ok.inj h
        exact .null
      · intro h
        cases h
        rfl
    | num number =>
      show (ofText (.num number) number.text.toList).map some = .ok workers ↔ _
      rw [map_some_eq_ok_iff]
      constructor
      · rintro ⟨size, hsize, rfl⟩
        obtain ⟨count, rfl, hcount⟩ := writes_number_iff.mp (ofText_eq_ok_iff.mp hsize)
        exact .number hcount
      · intro h
        cases h with
        | number h => exact ⟨_, ofText_eq_ok_iff.mpr (.fixed h), rfl⟩
    | str s =>
      show (ofText (.str s) (Text.trim s.toList)).map some = .ok workers ↔ _
      rw [map_some_eq_ok_iff]
      constructor
      · rintro ⟨size, hsize, rfl⟩
        exact .text (ofText_eq_ok_iff.mp hsize)
      · intro h
        cases h with
        | text h => exact ⟨_, ofText_eq_ok_iff.mpr h, rfl⟩
    | _ => exact ⟨nofun, nofun⟩

end Workers

/-! ## Clusters -/

theorem Json.isFilledObject_iff {value : Json} :
    value.isFilledObject = true ↔ ∃ fields, fields ≠ [] ∧ value = .obj fields := by
  cases value with
  | obj fields => cases fields <;> simp [isFilledObject]
  | _ => simp [isFilledObject]

/-- A cluster is read from a definition that gives its size. -/
theorem Cluster.ofDefinition_ok {definition : Json} (hfilled : definition.isFilledObject = true)
    {workers : Option Workers}
    (h : Workers.Gives ((definition.getD "properties").get? "new_cluster_num_of_worker") workers) :
    ∃ cluster, ofDefinition definition = .ok cluster ∧ cluster.workers = workers := by
  have hread := Workers.ofValue_eq_ok_iff.mpr h
  unfold ofDefinition Json.present?
  dsimp only
  rw [requireDefinition, if_pos hfilled, hread]
  exact ⟨_, rfl, rfl⟩

theorem Cluster.exists_error_of_ofDefinition {definition : Json}
    (h : ∀ workers,
      ¬Workers.Gives ((definition.getD "properties").get? "new_cluster_num_of_worker") workers) :
    ∃ obstacle, ofDefinition definition = .error obstacle := by
  cases hcluster : ofDefinition definition with
  | error obstacle => exact ⟨obstacle, rfl⟩
  | ok cluster =>
    unfold ofDefinition Json.present? requireDefinition at hcluster
    dsimp only at hcluster
    cases hread : Workers.ofValue
        (((definition.getD "properties").get? "new_cluster_num_of_worker").filter (!·.isNull)) with
    | ok workers => exact absurd (Workers.ofValue_eq_ok_iff.mp hread) (h workers)
    | error obstacle =>
      rw [hread] at hcluster
      split at hcluster <;> cases hcluster

namespace Task

/-- The activity has a linked service. -/
def HasService (activity : Json) : Prop :=
  ∃ fields, fields ≠ [] ∧ activity.get? "linked_service_definition" = some (.obj fields)

/-- The activity has a linked service that gives the size of a cluster. -/
structure Sizes (activity : Json) (workers : Option Workers) : Prop where
  service : HasService activity
  gives : Workers.Gives
    (((activity.getD "linked_service_definition").getD "properties").get? "new_cluster_num_of_worker")
    workers

theorem isFilledObject_iff_hasService {activity : Json} :
    (activity.getD "linked_service_definition").isFilledObject = true ↔ HasService activity := by
  rw [Json.isFilledObject_iff, HasService, Json.getD]
  refine exists_congr fun fields => and_congr_right fun _ => ?_
  cases activity.get? "linked_service_definition" with
  | none => simp
  | some value => simp

/-- What comes of the linked service of an activity. -/
inductive ReadsCluster (activity : Json) : Noted (Option Cluster) → Prop where
  | none (h : ¬HasService activity) : ReadsCluster activity (.quiet none)
  | sized {cluster : Cluster} (h : Sizes activity cluster.workers) :
      ReadsCluster activity (.quiet (some cluster))
  | unread (hservice : HasService activity) (h : ∀ workers, ¬Sizes activity workers)
      (message : String) :
      ReadsCluster activity ⟨none, [⟨"linked_service_definition", message⟩]⟩

theorem clusterOf_cases (activity : Json) : ReadsCluster activity (clusterOf activity) := by
  unfold clusterOf
  dsimp only
  split
  · rename_i hfilled
    have hservice := isFilledObject_iff_hasService.mp hfilled
    by_cases hsizes : ∃ workers, Sizes activity workers
    · obtain ⟨workers, hsizes⟩ := hsizes
      obtain ⟨cluster, hcluster, rfl⟩ := Cluster.ofDefinition_ok hfilled hsizes.gives
      rw [hcluster]
      exact .sized hsizes
    · have hnone : ∀ workers, ¬Sizes activity workers := not_exists.mp hsizes
      obtain ⟨obstacle, hobstacle⟩ :=
        Cluster.exists_error_of_ofDefinition fun workers hgives => hnone workers ⟨hservice, hgives⟩
      rw [hobstacle]
      exact .unread hservice hnone obstacle.message
  · rename_i hempty
    exact .none fun hservice => hempty (isFilledObject_iff_hasService.mpr hservice)

/-- A field gives one size at most. -/
theorem Sizes.unique {activity : Json} {workers workers' : Option Workers} (h : Sizes activity workers)
    (h' : Sizes activity workers') : workers = workers' := by
  have hread := Workers.ofValue_eq_ok_iff.mpr h.gives
  rw [Workers.ofValue_eq_ok_iff.mpr h'.gives] at hread
  exact (Except.ok.inj hread).symm

end Task

end FactoryMigration
