import Mathlib.Data.List.Induction
import Mathlib.Data.List.Nodup
import VcCommonService.Audit.Partitions

/-!
# Maintenance of the partitions (`audit-partition.worker.ts`)

A job creates the partitions that do not exist, by name, and the database refuses a partition that
overlaps another. The catalog holds whole months at all times, so no statement is refused for that,
and the months of a job leave no instant between it and the next one without a partition.
-/

namespace VcCommonService.Audit
open Lib Calendar Timestamptz

structure Partition where
  name : String
  lower : Timestamptz
  upper : Timestamptz
  deriving Repr, DecidableEq

def Partition.Contains (p : Partition) (t : Timestamptz) : Prop := p.lower ≤ t ∧ t < p.upper

def Partition.Overlaps (p q : Partition) : Prop := p.lower < q.upper ∧ q.lower < p.upper

instance (p q : Partition) : Decidable (p.Overlaps q) := inferInstanceAs (Decidable (_ ∧ _))

/-- A job: the clock of the worker and the configured number of months. -/
structure Job where
  now : ℤ
  configured : Number

def Job.monthsAhead (job : Job) : ℕ :=
  match job.configured with
  | .finite q => if 0 ≤ q then ⌊q⌋.toNat else 3
  | _ => 3

section Worker

variable (input : Input)

/-- `CREATE TABLE IF NOT EXISTS … PARTITION OF audit_log FOR VALUES FROM … TO …`. A table of the
name is left as it is, whatever its bounds. -/
def createPartition (catalog : List Partition) (spec : PartitionSpec) :
    Except ServiceError (List Partition) :=
  if catalog.any fun p => decide (p.name = spec.name) then .ok catalog
  else match input.cast spec.fromText, input.cast spec.toText with
    | some lower, some upper =>
      let partition : Partition := ⟨spec.name, lower, upper⟩
      if upper ≤ lower then .error (.constraint "empty range bound")
      else if catalog.any fun p => decide (p.Overlaps partition) then
        .error (.constraint "would overlap partition")
      else .ok (catalog ++ [partition])
    | _, _ => .error (.constraint "invalid input syntax")

/-- The statements of one job commit one by one; the first that fails ends it. -/
def createPartitions : List Partition → List PartitionSpec → List Partition × Option ServiceError
  | catalog, [] => (catalog, none)
  | catalog, spec :: specs =>
    match createPartition input catalog spec with
    | .error e => (catalog, some e)
    | .ok catalog => createPartitions catalog specs

def handle (catalog : List Partition) (job : Job) : List Partition × Option ServiceError :=
  match buildMonthlyPartitionSpecs job.now job.monthsAhead with
  | .error e => (catalog, some e)
  | .ok specs => createPartitions input catalog specs

/-- The partitions after a sequence of jobs; the migration is the first of them. -/
def maintain (jobs : List Job) : List Partition :=
  jobs.foldl (fun catalog job => (handle input catalog job).1) []

end Worker

/-! ### The catalog -/

def monthPartition (k : ℤ) : Partition :=
  ⟨(monthSpec k).name, ofMs (monthStart k), ofMs (monthStart (k + 1))⟩

theorem contains_monthPartition {k : ℤ} {t : Timestamptz} :
    (monthPartition k).Contains t ↔ monthOf (floorMs t) = k := by
  unfold Partition.Contains monthPartition
  rw [monthOf_eq_iff, ofMs_le_iff, ← not_le, ofMs_le_iff, not_le]

theorem overlaps_monthPartition {k k' : ℤ} :
    (monthPartition k).Overlaps (monthPartition k') ↔ k = k' := by
  unfold Partition.Overlaps monthPartition
  rw [ofMs_lt_ofMs, ofMs_lt_ofMs, monthStart_lt_iff, monthStart_lt_iff]
  omega

/-- Both bounds of a month are read by the database: they lie in the years up to 9999. -/
def ReadableMonth (k : ℤ) : Prop := k + 1 < 120000

instance : DecidablePred ReadableMonth := fun _ => inferInstanceAs (Decidable (_ < _))

theorem isReadable_monthStart {k : ℤ} (h : 23640 ≤ k) :
    IsReadable (monthStart k) ↔ k < 120000 := by
  unfold IsReadable getUTCFullYear
  rw [monthOf_monthStart]
  omega

/-- The partitions are those of these months. -/
structure IsCatalog (catalog : List Partition) (months : List ℤ) : Prop where
  eq : catalog = months.map monthPartition
  nodup : months.Nodup
  recent : ∀ k ∈ months, 23640 ≤ k

/-- An instant a `Date` holds, from 1970 on. -/
def IsStart (t : ℤ) : Prop := 0 ≤ t ∧ IsTime t

instance : DecidablePred IsStart := fun _ => inferInstanceAs (Decidable (_ ∧ _))

def Job.months (job : Job) : List ℤ :=
  (List.range (job.monthsAhead + 1)).map fun i : ℕ => monthOf job.now + i

theorem Job.mem_months {job : Job} {k : ℤ} :
    k ∈ job.months ↔ monthOf job.now ≤ k ∧ k ≤ monthOf job.now + job.monthsAhead := by
  unfold Job.months
  rw [List.mem_map]
  constructor
  · rintro ⟨i, hi, rfl⟩
    have hi := List.mem_range.mp hi
    omega
  · rintro ⟨hle, hle'⟩
    exact ⟨(k - monthOf job.now).toNat, List.mem_range.mpr (by omega), by omega⟩

/-- The bounds of the job lie in the years that the database reads. -/
def Job.Readable (job : Job) : Prop := ReadableMonth (monthOf job.now + job.monthsAhead)

instance : DecidablePred Job.Readable := fun _ => inferInstanceAs (Decidable (ReadableMonth _))

theorem endsInDate_of_readable {job : Job} (hstart : 0 ≤ job.now) (h : job.Readable) :
    EndsInDate job.now job.monthsAhead := by
  have hmonth := month_nonneg hstart
  have h0 := monthStart_nonneg (k := monthOf job.now + job.monthsAhead + 1) (by omega)
  have hlast : monthStart 120000 ≤ maxTime := by decide +kernel
  have hmono := monthStart_le_iff.mpr (Int.le_of_lt h)
  unfold EndsInDate IsTime maxTime at *
  omega

section Catalog

variable (input : Input) {catalog : List Partition} {months : List ℤ} {k : ℤ}

theorem IsCatalog.any_name (h : IsCatalog catalog months) (hk : 23640 ≤ k) :
    (catalog.any fun p => decide (p.name = (monthSpec k).name)) = decide (k ∈ months) := by
  rw [h.eq, Bool.eq_iff_iff, List.any_map, List.any_eq_true, decide_eq_true_eq]
  constructor
  · rintro ⟨j, hj, hname⟩
    have hname := of_decide_eq_true hname
    have hj0 := h.recent j hj
    rwa [(name_monthSpec_inj (by omega) (by omega)).mp hname] at hj
  · exact fun hmem => ⟨k, hmem, decide_eq_true rfl⟩

theorem IsCatalog.any_overlaps (h : IsCatalog catalog months) :
    (catalog.any fun p => decide (p.Overlaps (monthPartition k))) = decide (k ∈ months) := by
  rw [h.eq, Bool.eq_iff_iff, List.any_map, List.any_eq_true, decide_eq_true_eq]
  constructor
  · rintro ⟨j, hj, hoverlaps⟩
    rwa [overlaps_monthPartition.mp (of_decide_eq_true hoverlaps)] at hj
  · exact fun hmem => ⟨k, hmem, decide_eq_true (overlaps_monthPartition.mpr rfl)⟩

/-- A statement creates its month, finds it, or cannot have its bounds read: it never overlaps. -/
theorem createPartition_month (h : IsCatalog catalog months) (hk : 23640 ≤ k) (hmonth : IsMonth k) :
    createPartition input catalog (monthSpec k) =
      if k ∈ months then .ok catalog
      else if ReadableMonth k then .ok (catalog ++ [monthPartition k])
      else .error (.constraint "invalid input syntax") := by
  unfold createPartition
  rw [h.any_name hk]
  by_cases hmem : k ∈ months
  · rw [if_pos (decide_eq_true hmem), if_pos hmem]
  · rw [if_neg (by simpa using hmem), if_neg hmem]
    have hfrom := isReadable_monthStart hk
    have hto := isReadable_monthStart (k := k + 1) (by omega)
    by_cases hread : ReadableMonth k
    · have hlower := input.cast_isoText _ hmonth.1 
        (hfrom.mpr ((lt_add_one k).trans hread))
      have hupper := input.cast_isoText _ hmonth.2 (hto.mpr hread)
      have hbound : ¬ ofMs (monthStart (k + 1)) ≤ ofMs (monthStart k) :=
        not_le.mpr (ofMs_lt_ofMs.mpr (monthStart_lt_iff.mpr (lt_add_one k)))
      rw [if_pos hread]
      unfold monthSpec at *
      rw [hlower, hupper]
      dsimp only
      have hfree : ¬ (catalog.any fun p => decide (p.Overlaps (monthPartition k))) = true := by
        rw [h.any_overlaps]
        simpa using hmem
      rw [if_neg hbound]
      exact if_neg hfree
    · have hupper := input.cast_unreadable _ hmonth.2 fun hreadable => hread (hto.mp hreadable)
      rw [if_neg hread]
      unfold monthSpec
      rw [hupper]
      split
      next heq => cases heq
      next => rfl

theorem IsCatalog.concat (h : IsCatalog catalog months) (hk : 23640 ≤ k) (hmem : k ∉ months) :
    IsCatalog (catalog ++ [monthPartition k]) (months ++ [k]) where
  eq := by rw [h.eq, List.map_append, List.map_singleton]
  nodup := List.nodup_append.mpr ⟨h.nodup, List.nodup_singleton k, by
    intro j hj j' hj' heq
    rw [List.mem_singleton.mp hj'] at heq
    exact hmem (heq ▸ hj)⟩
  recent j hj := by
    rcases List.mem_append.mp hj with hj | hj
    · exact h.recent j hj
    · rw [List.mem_singleton.mp hj]
      exact hk

/-- After the statements of some months: the months that were there, and, unless a bound could not
be read, those of the statements. -/
structure Maintained (months ks : List ℤ) (result : List Partition × Option ServiceError) : Prop where
  isCatalog : ∃ months', IsCatalog result.1 months' ∧ months ⊆ months' ∧
    ((∀ k ∈ ks, ReadableMonth k) → result.2 = none ∧ ks ⊆ months')

theorem createPartitions_months (h : IsCatalog catalog months) {ks : List ℤ}
    (hks : ∀ k ∈ ks, 23640 ≤ k ∧ IsMonth k) :
    Maintained months ks (createPartitions input catalog (ks.map monthSpec)) := by
  induction ks generalizing catalog months with
  | nil => exact ⟨months, h, fun _ hk => hk, fun _ => ⟨rfl, List.nil_subset _⟩⟩
  | cons k ks ih =>
    obtain ⟨hk, hmonth⟩ := hks k (List.mem_cons_self ..)
    have hrest : ∀ j ∈ ks, 23640 ≤ j ∧ IsMonth j := fun j hj => hks j (List.mem_cons_of_mem _ hj)
    rw [List.map_cons, createPartitions, createPartition_month input h hk hmonth]
    by_cases hmem : k ∈ months
    · rw [if_pos hmem]
      obtain ⟨months', hcatalog, hsub, hdone⟩ := (ih h hrest).isCatalog
      refine ⟨months', hcatalog, hsub, fun hread => ?_⟩
      obtain ⟨hnone, hall⟩ := hdone fun j hj => hread j (List.mem_cons_of_mem _ hj)
      exact ⟨hnone, List.cons_subset.mpr ⟨hsub hmem, hall⟩⟩
    · rw [if_neg hmem]
      by_cases hreadable : ReadableMonth k
      · rw [if_pos hreadable]
        obtain ⟨months', hcatalog, hsub, hdone⟩ := (ih (h.concat hk hmem) hrest).isCatalog
        obtain ⟨hold, hnew⟩ := List.append_subset.mp hsub
        refine ⟨months', hcatalog, hold, fun hread => ?_⟩
        obtain ⟨hnone, hall⟩ := hdone fun j hj => hread j (List.mem_cons_of_mem _ hj)
        exact ⟨hnone, List.cons_subset.mpr ⟨hnew (List.mem_singleton_self k), hall⟩⟩
      · rw [if_neg hreadable]
        exact ⟨months, h, fun _ hj => hj,
          fun hread => absurd (hread k (List.mem_cons_self ..)) hreadable⟩

theorem handle_maintained (h : IsCatalog catalog months) {job : Job} (hstart : IsStart job.now) :
    ∃ months', IsCatalog (handle input catalog job).1 months' ∧ months ⊆ months' ∧
      (job.Readable → (handle input catalog job).2 = none ∧ job.months ⊆ months') := by
  unfold handle
  by_cases hend : EndsInDate job.now job.monthsAhead
  · have hmonth := month_nonneg hstart.1
    have hks : ∀ k ∈ job.months, 23640 ≤ k ∧ IsMonth k := by
      intro k hk
      have hk := Job.mem_months.mp hk
      exact ⟨by omega, isMonth_of_le (by omega) hk.2 hend⟩
    obtain ⟨months', hcatalog, hsub, hdone⟩ := (createPartitions_months input h hks).isCatalog
    have hspecs : monthSpecs job.now job.monthsAhead = job.months.map monthSpec := by
      rw [Job.months, List.map_map]
      rfl
    rw [buildMonthlyPartitionSpecs_ok hstart.1 hstart.2 hend, hspecs]
    refine ⟨months', hcatalog, hsub, fun hread => hdone fun k hk => ?_⟩
    exact lt_of_le_of_lt (by have hk := Job.mem_months.mp hk; omega) hread
  · rw [buildMonthlyPartitionSpecs_error hstart.1 hstart.2 hend]
    exact ⟨months, h, fun _ hk => hk,
      fun hread => absurd (endsInDate_of_readable hstart.1 hread) hend⟩

theorem maintain_concat (jobs : List Job) (job : Job) :
    maintain input (jobs ++ [job]) = (handle input (maintain input jobs) job).1 := by
  unfold maintain
  rw [List.foldl_append, List.foldl_cons, List.foldl_nil]

/-- Run lemma: the catalog holds months only, and every month of every job whose bounds are read. -/
theorem maintain_months {jobs : List Job} (hstart : ∀ job ∈ jobs, IsStart job.now) :
    ∃ months, IsCatalog (maintain input jobs) months ∧
      ∀ job ∈ jobs, job.Readable → job.months ⊆ months := by
  induction jobs using List.reverseRecOn with
  | nil => exact ⟨[], ⟨rfl, List.nodup_nil, nofun⟩, nofun⟩
  | append_singleton jobs job ih =>
    obtain ⟨months, hcatalog, hmonths⟩ := ih fun j hj =>
      hstart j (List.mem_append_left _ hj)
    have hjob : IsStart job.now :=
      hstart job (List.mem_append_right _ (List.mem_singleton_self job))
    obtain ⟨months', hcatalog', hsub, hdone⟩ := handle_maintained input hcatalog hjob
    rw [maintain_concat]
    refine ⟨months', hcatalog', fun j hj hread => ?_⟩
    rcases List.mem_append.mp hj with hj | hj
    · exact fun _ hk => hsub (hmonths j hj hread hk)
    · rw [List.mem_singleton.mp hj] at hread ⊢
      exact (hdone hread).2

end Catalog

/-! ### Tiling -/

/-- The specs of a call are adjacent intervals, the first of which has `start` in it. -/
structure Tiles (start : ℤ) (monthsAhead : ℕ) (specs : List PartitionSpec) : Prop where
  length : specs.length = monthsAhead + 1
  first : ∃ s, specs[0]? = some s ∧ s.Covers start
  adjacent : ∀ i s s', specs[i]? = some s → specs[i + 1]? = some s' → s.toText = s'.fromText
  proper : ∀ s ∈ specs, ∃ lower upper, s.Spans lower upper ∧ lower < upper
  increasing : specs.Pairwise fun s s' => ∀ lower upper lower' upper',
    s.Spans lower upper → s'.Spans lower' upper' → lower < lower' ∧ upper < upper'

theorem getElem?_monthSpecs {start : ℤ} {monthsAhead i : ℕ} {s : PartitionSpec}
    (h : (monthSpecs start monthsAhead)[i]? = some s) : s = monthSpec (monthOf start + i) := by
  unfold monthSpecs at h
  rw [List.getElem?_map] at h
  obtain ⟨j, hj, rfl⟩ := Option.map_eq_some_iff.mp h
  obtain ⟨hlt, rfl⟩ := List.getElem?_eq_some_iff.mp hj
  rw [List.getElem_range]

theorem tiles_monthSpecs {start : ℤ} (hstart : IsStart start) {monthsAhead : ℕ}
    (hend : EndsInDate start monthsAhead) :
    Tiles start monthsAhead (monthSpecs start monthsAhead) := by
  have hmonth := month_nonneg hstart.1
  have hvalid : ∀ i ∈ List.range (monthsAhead + 1), IsMonth (monthOf start + i) := by
    intro i hi
    have hi := List.mem_range.mp hi
    exact isMonth_of_le (by omega) (by omega) hend
  refine ⟨?_, ?_, ?_, ?_, ?_⟩
  · rw [monthSpecs, List.length_map, List.length_range]
  · refine ⟨monthSpec (monthOf start + (0 : ℕ)), ?_, ?_⟩
    · rw [monthSpecs, List.getElem?_map, List.getElem?_range (by omega)]
      rfl
    · rw [covers_monthSpec (hvalid 0 (List.mem_range.mpr (by omega)))]
      exact (add_zero _).symm
  · intro i s s' hs hs'
    rw [getElem?_monthSpecs hs, getElem?_monthSpecs hs', Nat.cast_add, ← add_assoc]
    rfl
  · intro s hs
    obtain ⟨i, hi, rfl⟩ := List.mem_map.mp hs
    exact ⟨_, _, (spans_monthSpec (hvalid i hi)).mpr ⟨rfl, rfl⟩,
      monthStart_lt_iff.mpr (lt_add_one _)⟩
  · rw [monthSpecs, List.pairwise_map]
    refine List.pairwise_lt_range.imp_of_mem fun hi hj hlt => ?_
    intro lower upper lower' upper' hspans hspans'
    obtain ⟨rfl, rfl⟩ := (spans_monthSpec (hvalid _ hi)).mp hspans
    obtain ⟨rfl, rfl⟩ := (spans_monthSpec (hvalid _ hj)).mp hspans'
    exact ⟨monthStart_lt_iff.mpr (by omega), monthStart_lt_iff.mpr (by omega)⟩

/-- A name stands for one range, in whatever calls it turns up. -/
def NamesRanges (s s' : PartitionSpec) : Prop :=
  (s.name = s'.name ↔ s.fromText = s'.fromText ∧ s.toText = s'.toText) ∧
    (s.name ≠ s'.name → ∀ t, ¬ (s.Covers t ∧ s'.Covers t))

theorem namesRanges_monthSpec {k k' : ℤ} (hk : 23640 ≤ k) (hk' : 23640 ≤ k') (h : IsMonth k)
    (h' : IsMonth k') : NamesRanges (monthSpec k) (monthSpec k') := by
  have hname := name_monthSpec_inj (show 0 ≤ k by omega) (show 0 ≤ k' by omega)
  refine ⟨?_, ?_⟩
  · rw [hname]
    constructor
    · rintro rfl
      exact ⟨rfl, rfl⟩
    · rintro ⟨hfrom, -⟩
      have hstart : monthStart k = monthStart k' := (isoText_inj h.1 h'.1).mp hfrom
      exact le_antisymm (monthStart_le_iff.mp hstart.le) (monthStart_le_iff.mp hstart.ge)
  · rintro hne t ⟨ht, ht'⟩
    rw [covers_monthSpec h] at ht
    rw [covers_monthSpec h'] at ht'
    exact hne (hname.mpr (ht.symm.trans ht'))

def Succeeds (input : Input) (jobs : List Job) : Prop :=
  ∀ before job after, jobs = before ++ job :: after →
    (handle input (maintain input before) job).2 = none

/-- Where the next job runs within the months that a job created, every instant from the month of
the one to the other lies in exactly one partition. -/
def NoGap (input : Input) (jobs : List Job) : Prop :=
  ∀ before job next after, jobs = before ++ job :: next :: after →
    monthOf next.now ≤ monthOf job.now + job.monthsAhead →
      ∀ t : Timestamptz, ofMs (monthStart (monthOf job.now)) ≤ t → t ≤ ofMs next.now →
        ∃ p, (p ∈ maintain input jobs ∧ p.Contains t) ∧
          ∀ q ∈ maintain input jobs, q.Contains t → q = p

theorem IsCatalog.disjoint {catalog : List Partition} {months : List ℤ}
    (h : IsCatalog catalog months) : catalog.Pairwise fun p q => ¬ p.Overlaps q := by
  rw [h.eq, List.pairwise_map]
  exact h.nodup.imp fun hne hoverlaps => hne (overlaps_monthPartition.mp hoverlaps)

theorem succeeds_of_readable (input : Input) {jobs : List Job}
    (hstart : ∀ job ∈ jobs, IsStart job.now) (hread : ∀ job ∈ jobs, job.Readable) :
    Succeeds input jobs := by
  rintro before job after rfl
  have hjob : job ∈ before ++ job :: after := List.mem_append_right _ (List.mem_cons_self ..)
  obtain ⟨months, hcatalog, -⟩ := maintain_months input fun j hj =>
    hstart j (List.mem_append_left _ hj)
  obtain ⟨_, -, -, hdone⟩ := handle_maintained input hcatalog (hstart job hjob)
  exact (hdone (hread job hjob)).1

theorem noGap_of_readable (input : Input) {jobs : List Job}
    (hstart : ∀ job ∈ jobs, IsStart job.now) (hread : ∀ job ∈ jobs, job.Readable) :
    NoGap input jobs := by
  rintro before job next after rfl hnear t hfrom hto
  have hjob : job ∈ before ++ job :: next :: after :=
    List.mem_append_right _ (List.mem_cons_self ..)
  obtain ⟨months, hcatalog, hmonths⟩ := maintain_months input hstart
  have hfirst := monthOf_mono (ofMs_le_iff.mp hfrom)
  rw [monthOf_monthStart] at hfirst
  have hlast := monthOf_mono (floorMs_le_of_le hto)
  have hmem : monthOf (floorMs t) ∈ months :=
    hmonths job hjob (hread job hjob) (Job.mem_months.mpr ⟨hfirst, hlast.trans hnear⟩)
  rw [hcatalog.eq]
  refine ⟨monthPartition (monthOf (floorMs t)),
    ⟨List.mem_map_of_mem hmem, contains_monthPartition.mpr rfl⟩, fun q hq hcontains => ?_⟩
  obtain ⟨k, -, rfl⟩ := List.mem_map.mp hq
  rw [contains_monthPartition.mp hcontains]

/-- A call tiles the months from its start on, or throws when these go past the last `Date`. All
calls agree on the range of a name, so that jobs never create partitions that overlap, none of
their statements fails, and jobs within reach of one another leave no gap. -/
theorem audit_partitions_tile (input : Input) :
    (∀ start monthsAhead, IsStart start →
      if EndsInDate start monthsAhead then
        ∃ specs, buildMonthlyPartitionSpecs start monthsAhead = .ok specs ∧
          Tiles start monthsAhead specs
      else buildMonthlyPartitionSpecs start monthsAhead = .error invalidTimeValue) ∧
    (∀ start start' monthsAhead monthsAhead' specs specs', IsStart start → IsStart start' →
      buildMonthlyPartitionSpecs start monthsAhead = .ok specs →
      buildMonthlyPartitionSpecs start' monthsAhead' = .ok specs' →
      ∀ s ∈ specs, ∀ s' ∈ specs', NamesRanges s s') ∧
    ∀ jobs : List Job, (∀ job ∈ jobs, IsStart job.now) →
      (maintain input jobs).Pairwise (fun p q => ¬ p.Overlaps q) ∧
        ((∀ job ∈ jobs, job.Readable) → Succeeds input jobs ∧ NoGap input jobs) := by
  refine ⟨fun start monthsAhead hstart => ?_, ?_, fun jobs hstart => ⟨?_, fun hread => ?_⟩⟩
  · split
    next hend =>
      exact ⟨_, buildMonthlyPartitionSpecs_ok hstart.1 hstart.2 hend, tiles_monthSpecs hstart hend⟩
    next hend => exact buildMonthlyPartitionSpecs_error hstart.1 hstart.2 hend
  · intro start start' monthsAhead monthsAhead' specs specs' hstart hstart' hspecs hspecs' s hs s' hs'
    obtain ⟨k, hk, hmonth, rfl⟩ := mem_specs hstart.1 hstart.2 hspecs hs
    obtain ⟨k', hk', hmonth', rfl⟩ := mem_specs hstart'.1 hstart'.2 hspecs' hs'
    exact namesRanges_monthSpec hk hk' hmonth hmonth'
  · obtain ⟨months, hcatalog, -⟩ := maintain_months input hstart
    exact hcatalog.disjoint
  · exact ⟨succeeds_of_readable input hstart hread, noGap_of_readable input hstart hread⟩

/-- The migration in January 2024 and a job in March. -/
def winterJobs : List Job := [⟨1704067200000, .finite 3⟩, ⟨1709251200000, .finite 3⟩]

theorem audit_partitions_tile_winter :
    Succeeds isoInput winterJobs ∧ (maintain isoInput winterJobs).length = 6 :=
  ⟨((audit_partitions_tile isoInput).2.2 winterJobs (by decide +kernel)).2 (by decide +kernel) |>.1,
    by decide +kernel⟩

/-- In the last month that begins at a `Date`, no spec is returned. -/
theorem audit_partitions_not_built :
    ¬ ∀ start monthsAhead, IsStart start →
      ∃ specs, buildMonthlyPartitionSpecs start monthsAhead = .ok specs ∧
        Tiles start monthsAhead specs := by
  intro h
  obtain ⟨specs, hspecs, -⟩ := h 8640000000000000 0 (by decide +kernel)
  have herror : buildMonthlyPartitionSpecs 8640000000000000 0 = .error invalidTimeValue := by
    decide +kernel
  rw [herror] at hspecs
  cases hspecs

end VcCommonService.Audit
