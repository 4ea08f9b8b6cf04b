import Sipahi.SntmAcceptance
import Mathlib.Logic.Relation

/-!
# Waived demo features and Cargo's default feature

Two guards look for a waived feature in the list of `default`. Cargo switches on everything that
`default` reaches.
-/
namespace SntmDemoWaivers

open KernelTypes SntmManifest SntmAcceptance Relation

/-- The rule of `task-lint`, given the path of the task's `Cargo.toml` and what reading it
yields. -/
def checkDemoWaiversCargo (debugStrings : List String → String) (cargoPath : String)
    (cargo : CargoRead) (waivers : List String) : Except String Unit :=
  if waivers.isEmpty then .ok ()
  else match cargo with
    | .missing => .error s!"cannot read {cargoPath}: No such file or directory (os error 2)"
    | .unreadable e => .error s!"cannot read {cargoPath}: {e}"
    | .malformed e => .error s!"task Cargo.toml parse error: {e}"
    | .parsed .notTable => .error "[features] must be a table"
    | .parsed .absent =>
      .error (s!"demo_feature_waivers={debugStrings waivers} but [features] table missing " ++
        "in Cargo.toml")
    | .parsed (.table features) =>
      let errs := waivers.flatMap fun w =>
        if (features.lookup w).isNone then [s!"waiver '{w}' orphan (not in [features])"]
        else reportIf ((defaultFeatures features).any (· == w))
          s!"waiver '{w}' is in [features.default] (must be default-OFF; drift)"
      if errs.isEmpty then .ok () else .error ("; ".intercalate errs)

/-! ## What Cargo enables -/

/-- The features that a feature lists. -/
def listedFeatures (features : List (String × TomlValue)) (name : String) : List String :=
  match features.lookup name with
  | some (.array items) => items.filterMap fun
    | .string s => some s
    | _ => none
  | _ => []

/-- `name` being on switches `other` on. -/
def Enables (features : List (String × TomlValue)) (name other : String) : Prop :=
  other ∈ listedFeatures features name

/-- On in a build with the default features. -/
def EnabledByDefault (features : List (String × TomlValue)) (name : String) : Prop :=
  ReflTransGen (Enables features) "default" name

/-- On by way of a feature that `default` lists. -/
def EnabledThrough (features : List (String × TomlValue)) (name : String) : Prop :=
  ∃ listed ∈ defaultFeatures features, TransGen (Enables features) listed name

theorem enables_default {features : List (String × TomlValue)} {name : String} :
    Enables features "default" name ↔ name ∈ defaultFeatures features := Iff.rfl

theorem enabledByDefault_iff {features : List (String × TomlValue)} {name : String} :
    EnabledByDefault features name ↔
      name = "default" ∨ name ∈ defaultFeatures features ∨ EnabledThrough features name := by
  rw [EnabledByDefault, reflTransGen_iff_eq_or_transGen]
  constructor
  · rintro (hself | htrans)
    · exact Or.inl hself
    · obtain ⟨listed, hlisted, hrest⟩ := TransGen.head'_iff.mp htrans
      rcases reflTransGen_iff_eq_or_transGen.mp hrest with hdirect | hthrough
      · exact Or.inr (Or.inl (hdirect ▸ enables_default.mp hlisted))
      · exact Or.inr (Or.inr ⟨listed, enables_default.mp hlisted, hthrough⟩)
  · rintro (hself | hdirect | ⟨listed, hlisted, hthrough⟩)
    · exact Or.inl hself
    · exact Or.inr (.single (enables_default.mpr hdirect))
    · exact Or.inr (.head (enables_default.mpr hlisted) hthrough)

/-! ## What the guards establish -/

section

variable {features : List (String × TomlValue)} {waivers : List String}

theorem taskLint_direct {debugStrings : List String → String} {cargoPath : String}
    (h : checkDemoWaiversCargo debugStrings cargoPath (.parsed (.table features)) waivers = .ok ()) :
    ∀ w ∈ waivers, w ∉ defaultFeatures features := by
  intro w hw hdefault
  rw [checkDemoWaiversCargo, if_neg (by simp [List.ne_nil_of_mem hw])] at h
  dsimp only at h
  split at h
  · rename_i hquiet
    rw [List.isEmpty_iff, List.flatMap_eq_nil_iff] at hquiet
    have hnone := hquiet w hw
    split at hnone
    · cases hnone
    · rw [reportIf_eq_nil, List.any_eq_false] at hnone
      exact hnone w hdefault (by simp)
  · cases h

theorem validate_direct {m : Manifest} {host : Host} (h : checkDemoWaiverCargo m host = .ok ())
    {t : TaskEntry} (ht : t ∈ m.tasks) (hcargo : host.cargoToml t.name = .parsed (.table features)) :
    ∀ w ∈ t.demoFeatureWaivers, w ∉ defaultFeatures features := by
  intro w hw hdefault
  rw [checkDemoWaiverCargo, verdict_eq_ok, List.flatMap_eq_nil_iff] at h
  have hquiet := h t ht
  rw [if_neg (by simp [List.ne_nil_of_mem hw]), hcargo] at hquiet
  dsimp only at hquiet
  have hnone := List.flatMap_eq_nil_iff.mp hquiet w hw
  split at hnone
  · cases hnone
  · rw [reportIf_eq_nil, List.any_eq_false] at hnone
    exact hnone w hdefault (by simp)

end

/-- When a guard passes, no waived feature is on in a default build exactly when none is
`default` itself or switched on by way of a listed feature. The second guard adds nothing. -/
theorem waived_features_off_iff (m : Manifest) (host : Host) (t : TaskEntry) (ht : t ∈ m.tasks)
    (features : List (String × TomlValue))
    (hcargo : host.cargoToml t.name = .parsed (.table features)) (cargoPath : String)
    (hguard : checkDemoWaiverCargo m host = .ok () ∨
      checkDemoWaiversCargo host.debugStrings cargoPath (host.cargoToml t.name)
        t.demoFeatureWaivers = .ok ()) :
    (∀ w ∈ t.demoFeatureWaivers, ¬ EnabledByDefault features w) ↔
      ∀ w ∈ t.demoFeatureWaivers, w ≠ "default" ∧ ¬ EnabledThrough features w := by
  have hdirect : ∀ w ∈ t.demoFeatureWaivers, w ∉ defaultFeatures features := by
    rcases hguard with hvalidate | hlint
    · exact validate_direct hvalidate ht hcargo
    · rw [hcargo] at hlint
      exact taskLint_direct hlint
  constructor
  · intro hoff w hw
    have hw' := hoff w hw
    rw [enabledByDefault_iff, not_or, not_or] at hw'
    exact ⟨hw'.1, hw'.2.2⟩
  · intro hfar w hw
    rw [enabledByDefault_iff, not_or, not_or]
    exact ⟨(hfar w hw).1, hdirect w hw, (hfar w hw).2⟩

theorem taskHello_waiver_off :
    checkDemoWaiverCargo sipahiToml workspaceHost = .ok () ∧
      ∀ w ∈ taskHello.demoFeatureWaivers,
        ¬ EnabledByDefault [("cross-isolation-demo", .array [])] w := by
  have hvalidate : checkDemoWaiverCargo sipahiToml workspaceHost = .ok () := by decide
  refine ⟨hvalidate, ?_⟩
  apply (waived_features_off_iff sipahiToml workspaceHost taskHello (by decide)
    [("cross-isolation-demo", .array [])] rfl "tasks/task_hello/Cargo.toml"
    (Or.inl hvalidate)).mpr
  intro w hw
  cases List.mem_singleton.mp hw
  refine ⟨by decide, ?_⟩
  rintro ⟨listed, hlisted, -⟩
  cases hlisted

/-- `default = ["convenience"]` and `convenience = ["cross-isolation-demo"]`. -/
def convenienceFeatures : List (String × TomlValue) :=
  [("default", .array [.string "convenience"]),
   ("convenience", .array [.string "cross-isolation-demo"]),
   ("cross-isolation-demo", .array [])]

def convenienceHost : Host :=
  { workspaceHost with cargoToml := fun _ => .parsed (.table convenienceFeatures) }

theorem convenience_enables_waived :
    ¬ ∀ (m : Manifest) (host : Host), ∀ t ∈ m.tasks, ∀ features,
      host.cargoToml t.name = .parsed (.table features) → checkDemoWaiverCargo m host = .ok () →
      ∀ cargoPath, checkDemoWaiversCargo host.debugStrings cargoPath (host.cargoToml t.name)
        t.demoFeatureWaivers = .ok () →
      ∀ w ∈ t.demoFeatureWaivers, ¬ EnabledByDefault features w := by
  intro hall
  have hlisted : "convenience" ∈ defaultFeatures convenienceFeatures := by decide
  have hnext : Enables convenienceFeatures "convenience" "cross-isolation-demo" := by
    rw [Enables]
    decide
  refine hall sipahiToml convenienceHost taskHello (by decide) convenienceFeatures rfl (by decide)
    "tasks/task_hello/Cargo.toml" (by rfl) "cross-isolation-demo" (by decide) ?_
  exact enabledByDefault_iff.mpr (Or.inr (Or.inr ⟨"convenience", hlisted, .single hnext⟩))

end SntmDemoWaivers
