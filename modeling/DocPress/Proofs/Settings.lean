import DocPress.Proofs.Variables

/-! The settings of a file, expanded one after the other. A step over some of them comes to a value
or to the error of the first of them that does not expand, and steps in a row do as one step. -/

namespace DocPress

set_option autoImplicit false

open Segment

namespace ConfigFile

/-- The settings that are expanded, each with its field, in the order of the fields. -/
def settings (f : ConfigFile) : List (String × String) :=
  (f.baseDir.map fun value => ("output.base_dir", value)).toList ++
    (f.attributes.entries.flatMap fun e => [("attributes." ++ e.1, e.2)]) ++
    f.chrome.navigation.entries.flatMap fun e =>
      e.2.flatMap fun l => [("chrome.navigation." ++ e.1 ++ ".href", l.href)]

/-- A file with its settings changed and everything else as it was. -/
def withSettings (f : ConfigFile) (g : String → String) : ConfigFile :=
  { f with
    baseDir := f.baseDir.map g
    attributes := f.attributes.mapValues g
    chrome := { f.chrome with
      navigation := f.chrome.navigation.mapValues fun links =>
        links.map fun l => { l with href := g l.href } } }

theorem settings_withSettings (f : ConfigFile) (g : String → String) :
    (f.withSettings g).settings = f.settings.map fun s => (s.1, g s.2) := by
  cases hdir : f.baseDir <;>
    simp [settings, withSettings, SortedMap.mapValues, hdir, List.map_flatMap, List.flatMap_map]

/-- The error of a setting that does not expand. -/
def fault? (env : Environment) (s : String × String) : Option ConfigError :=
  match expandField env s.1 s.2 with
  | .error e => some e
  | .ok _ => none

/-- What a setting expands to, or the setting if it does not expand. -/
def expanded (env : Environment) (value : String) : String :=
  match expandSetting env value with
  | .ok new => new
  | .error _ => value

/-- Whether a step that expands some settings comes to `a`, or to the error of the first of them
that does not expand. -/
def Steps {α : Type} (env : Environment) (settings : List (String × String))
    (x : Except ConfigError α) (a : α) : Prop :=
  x = match settings.findSome? (fault? env) with
    | some e => .error e
    | none => .ok a

namespace Steps

variable {α β : Type} {env : Environment} {first second : List (String × String)}

theorem done (a : α) : Steps env [] (pure a) a := rfl

theorem bind {x : Except ConfigError α} {k : α → Except ConfigError β} {a : α} {b : β}
    (hx : Steps env first x a) (hk : Steps env second (k a) b) :
    Steps env (first ++ second) (x >>= k) b := by
  unfold Steps at hx hk ⊢
  rw [hx, List.findSome?_append]
  cases first.findSome? (fault? env) with
  | some e => rfl
  | none => exact hk

theorem map {x : Except ConfigError α} {a : α} (h : Steps env first x a) (f : α → β) :
    Steps env first (x >>= fun v => pure (f v)) (f a) := by
  have hdone : Steps env [] (pure (f a)) (f a) := done (f a)
  rw [← List.append_nil first]
  exact h.bind hdone

theorem field (field value : String) :
    Steps env [(field, value)] (expandField env field value) (expanded env value) := by
  unfold Steps
  simp only [List.findSome?_cons, List.findSome?_nil, fault?, expandField, expanded]
  cases expandSetting env value <;> rfl

theorem mapM {settings : α → List (String × String)} {step : α → Except ConfigError β} {g : α → β}
    (h : ∀ a, Steps env (settings a) (step a) (g a)) (as : List α) :
    Steps env (as.flatMap settings) (as.mapM step) (as.map g) := by
  induction as with
  | nil => exact done []
  | cons a as ih =>
    rw [List.mapM_cons, List.flatMap_cons]
    exact (h a).bind (ih.map (g a :: ·))

end Steps

theorem expandAttributes_steps (env : Environment) (attributes : SortedMap String) :
    Steps env (attributes.entries.flatMap fun e => [("attributes." ++ e.1, e.2)])
      (expandAttributes env attributes) (attributes.mapValues (expanded env)) := by
  have hentry (e : String × String) : Steps env [("attributes." ++ e.1, e.2)]
      (do return (e.1, ← expandField env ("attributes." ++ e.1) e.2)) (e.1, expanded env e.2) :=
    (Steps.field _ e.2).map fun value => (e.1, value)
  rw [← SortedMap.ofList_mapValues]
  exact (Steps.mapM hentry attributes.entries).map SortedMap.ofList

theorem expandNavigation_steps (env : Environment) (navigation : SortedMap (List NavLink)) :
    Steps env (navigation.entries.flatMap fun e =>
        e.2.flatMap fun l => [("chrome.navigation." ++ e.1 ++ ".href", l.href)])
      (expandNavigation env navigation) (navigation.mapValues fun links =>
        links.map fun l => { l with href := expanded env l.href }) := by
  have hlink (field : String) (l : NavLink) : Steps env [(field, l.href)]
      (do
        let href ← expandField env field l.href
        return { l with href := href }) { l with href := expanded env l.href } :=
    (Steps.field field l.href).map fun href => { l with href := href }
  have hentry (e : String × List NavLink) :=
    (Steps.mapM (hlink ("chrome.navigation." ++ e.1 ++ ".href")) e.2).map fun links => (e.1, links)
  rw [← SortedMap.ofList_mapValues]
  exact (Steps.mapM hentry navigation.entries).map SortedMap.ofList

/-- The settings of a file are expanded one after the other, up to the first that does not. -/
theorem expand_steps (env : Environment) (f : ConfigFile) :
    Steps env f.settings (f.expand env) (f.withSettings (expanded env)) := by
  have hdir : Steps env (f.baseDir.map fun value => ("output.base_dir", value)).toList
      (f.baseDir.mapM (expandField env "output.base_dir")) (f.baseDir.map (expanded env)) := by
    cases f.baseDir with
    | none => exact Steps.done none
    | some value => exact (Steps.field _ value).map some
  rw [settings, List.append_assoc]
  exact hdir.bind ((expandAttributes_steps env f.attributes).bind
    ((expandNavigation_steps env f.chrome.navigation).map _))

/-- The outcomes of expanding a file: with its references replaced, or the error of the first
setting that has a variable without a value, which names the field and the variable. -/
inductive Outcome (env : Environment) (f : ConfigFile) : Except ConfigError ConfigFile → Prop where
  | replaced (g : String → String) (hg : ∀ s ∈ f.settings, Replaced env s.2 (g s.2)) :
    Outcome env f (.ok (f.withSettings g))
  | unset {before after : List (String × String)} {field value name : String}
    (hsettings : f.settings = before ++ (field, value) :: after)
    (hbefore : ∀ s ∈ before, ∃ new, Replaced env s.2 new) (hunset : Unset env value name) :
    Outcome env f (.error (.unsetVariable field name))

theorem Outcome.replaced_of_ok {env : Environment} {f : ConfigFile} {g : String → String}
    (h : Outcome env f (.ok (f.withSettings g))) : ∀ s ∈ f.settings, Replaced env s.2 (g s.2) := by
  generalize hx : Except.ok (f.withSettings g) = x at h
  intro s hs
  cases h with
  | unset _ _ _ => cases hx
  | replaced g' hg =>
    have hsettings := congrArg settings (Except.ok.inj hx)
    rw [settings_withSettings, settings_withSettings] at hsettings
    have hsame := List.map_inj_left.mp hsettings s hs
    rw [(Prod.mk.inj hsame).2]
    exact hg s hs

theorem fault?_of_ok {env : Environment} {s : String × String} {new : String}
    (h : expandSetting env s.2 = .ok new) : fault? env s = none ∧ expanded env s.2 = new := by
  constructor
  · rw [fault?, expandField, h]
    rfl
  · rw [expanded, h]

theorem fault?_of_error {env : Environment} {s : String × String} {name : String}
    (h : expandSetting env s.2 = .error name) :
    fault? env s = some (.unsetVariable s.1 name) := by
  rw [fault?, expandField, h]
  rfl

/-- The outcome of a file whose settings are tame. -/
theorem outcome_of_tame (env : Environment) {f : ConfigFile} (h : ∀ s ∈ f.settings, Tame s.2) :
    Outcome env f (f.expand env) := by
  have hwell (s : String × String) (hs : s ∈ f.settings) (hnone : fault? env s = none) :
      Replaced env s.2 (expanded env s.2) := by
    rcases expandSetting_cases env (h s hs) with ⟨new, hnew, hreplaced⟩ | ⟨name, hname, -⟩
    · rw [(fault?_of_ok hnew).2]
      exact hreplaced
    · rw [fault?_of_error hname] at hnone
      exact absurd hnone nofun
  rw [expand_steps env f]
  cases hfault : f.settings.findSome? (fault? env) with
  | none =>
    rw [List.findSome?_eq_none_iff] at hfault
    exact .replaced _ fun s hs => hwell s hs (hfault s hs)
  | some e =>
    obtain ⟨before, s, after, hsettings, hs, hbefore⟩ := List.findSome?_eq_some_iff.mp hfault
    have hmem : s ∈ f.settings := by rw [hsettings]; simp
    rcases expandSetting_cases env (h s hmem) with ⟨new, hnew, -⟩ | ⟨name, hname, hunset⟩
    · rw [(fault?_of_ok hnew).1] at hs
      exact absurd hs nofun
    · rw [fault?_of_error hname] at hs
      obtain rfl := Option.some.inj hs
      refine .unset hsettings (fun t ht => ⟨_, hwell t ?_ (hbefore t ht)⟩) hunset
      rw [hsettings]
      exact List.mem_append_left _ ht

/-- A file is expanded as its references say, whatever the environment, exactly if no other dollar
sign of a setting has a meaning. -/
theorem expand_references (f : ConfigFile) :
    (∀ env, Outcome env f (f.expand env)) ↔ ∀ s ∈ f.settings, Tame s.2 := by
  refine ⟨fun h s hs hopens segments hreads => ?_, fun h env => outcome_of_tame env h⟩
  -- Where every variable has a value, every setting expands, and other dollar signs are lost.
  obtain ⟨env, henv⟩ := exists_marked
    (segments ++ f.settings.flatMap fun t => scan 0 t.2.toList)
  have hsegments : Marked env segments := fun name default hm =>
    henv name default (List.mem_append_left _ hm)
  have hscan (t : String × String) (ht : t ∈ f.settings) : Marked env (scan 0 t.2.toList) :=
    fun name default hm =>
      henv name default (List.mem_append_right _ (List.mem_flatMap.mpr ⟨t, ht, hm⟩))
  have hok (t : String × String) (ht : t ∈ f.settings) :
      ∃ new, expandSetting env t.2 = .ok new := by
    by_cases hopens : "$\x7b".toList <:+: t.2.toList
    · exact ⟨_, expandSetting_marked hopens (hscan t ht)⟩
    · rw [expandSetting, Text.contains, if_neg fun hm => hopens (Text.occursIn_iff.mp hm)]
      exact ⟨_, rfl⟩
  have hexpand : f.expand env = .ok (f.withSettings (expanded env)) := by
    have hfault : f.settings.findSome? (fault? env) = none := by
      rw [List.findSome?_eq_none_iff]
      intro t ht
      obtain ⟨new, hnew⟩ := hok t ht
      exact (fault?_of_ok hnew).1
    rw [expand_steps env f, hfault]
  have hreplaced : Replaced env s.2 (expanded env s.2) := (hexpand ▸ h env).replaced_of_ok s hs
  obtain ⟨new, hnew⟩ := hok s hs
  rw [(fault?_of_ok hnew).2] at hreplaced
  exact inert_of_replaced hopens (hscan s hs) hreads hsegments hnew hreplaced

/-- Where every setting has its references replaced, the file is what they leave. -/
theorem Outcome.of_replaced {env : Environment} {f : ConfigFile} {x : Except ConfigError ConfigFile}
    (h : Outcome env f x) (hreplaced : ∀ s ∈ f.settings, ∃ new, Replaced env s.2 new) :
    ∃ g, x = .ok (f.withSettings g) ∧ ∀ s ∈ f.settings, Replaced env s.2 (g s.2) := by
  cases h with
  | replaced g hg => exact ⟨g, rfl, hg⟩
  | @unset before after field value name hsettings _ hunset =>
    obtain ⟨new, hnew⟩ := hreplaced (field, value) (by rw [hsettings]; simp)
    exact absurd hunset hnew.not_unset

/-- A file with one attribute. -/
def priced (price : String) : ConfigFile :=
  ⟨none, none, SortedMap.empty.insert "price" price, .blank⟩

theorem replaced_price {sign : String} (hsign : ¬ "$\x7b".toList <:+: sign.toList) :
    Replaced ∅ ("$\x7bCUR:-EUR\x7d" ++ sign) ("EUR" ++ sign) := by
  have hreference : IsReference (.variable "CUR" (some "EUR")) := by
    refine .named ⟨by decide, by decide, by decide +kernel⟩ ?_
    rintro value ⟨⟩
    decide
  have hreads : Reads ("$\x7bCUR:-EUR\x7d" ++ sign).toList
      (.variable "CUR" (some "EUR") :: sign.toList.map .char) :=
    .reference hreference String.toList_append (reads_unopened hsign)
  refine ⟨_, "EUR".toList :: sign.toList.map fun c => [c], hreads, ?_, ?_⟩
  · rw [List.mapM_cons, mapM_value_chars]
    rfl
  · rw [String.toList_append, List.flatten_cons, ← List.flatMap_def, List.flatMap_singleton']

theorem not_outcome_priced {price new : String} {x : Except ConfigError ConfigFile}
    (hprice : Replaced ∅ price new) (hother : x ≠ .ok (priced new)) :
    ¬ Outcome ∅ (priced price) x := by
  intro hout
  have hsettings : (priced price).settings = [("attributes.price", price)] := rfl
  obtain ⟨g, rfl, hg⟩ := hout.of_replaced fun s hs => by
    rw [hsettings] at hs
    obtain rfl := List.mem_singleton.mp hs
    exact ⟨new, hprice⟩
  have hnew : g price = new :=
    (hg ("attributes.price", price) (by rw [hsettings]; exact List.mem_singleton_self _)).eq hprice
  have hfile : (priced price).withSettings g = priced (g price) := rfl
  exact hother (by rw [hfile, hnew])

theorem expand_priced {price new : String} (h : expandSetting ∅ price = .ok new) :
    (priced price).expand ∅ = .ok (priced new) := by
  have hfault : (priced price).settings.findSome? (fault? ∅) = none := by
    rw [List.findSome?_eq_none_iff]
    intro s hs
    obtain rfl := List.mem_singleton.mp hs
    exact (fault?_of_ok h).1
  have hnew : expanded ∅ price = new := (fault?_of_ok (s := ("attributes.price", price)) h).2
  have hfile : (priced price).withSettings (expanded ∅) = priced (expanded ∅ price) := rfl
  rw [expand_steps, hfault, hfile, hnew]

theorem expand_unpriced {price name : String} (h : expandSetting ∅ price = .error name) :
    (priced price).expand ∅ = .error (.unsetVariable "attributes.price" name) := by
  have hfault : (priced price).settings.findSome? (fault? ∅) =
      some (.unsetVariable "attributes.price" name) := by
    have hsettings : (priced price).settings = [("attributes.price", price)] := rfl
    rw [hsettings, List.findSome?_cons, fault?_of_error h]
  rw [expand_steps, hfault]

/-- A dollar sign ahead of a digit, or of another one, is not kept in a setting with a reference. -/
theorem expand_price :
    let digit := "$\x7bCUR:-EUR\x7d $5"
    let double := "$\x7bCUR:-EUR\x7d $$"
    Replaced ∅ digit "EUR $5" ∧ Replaced ∅ double "EUR $$" ∧
      (priced digit).expand ∅ = .error (.unsetVariable "attributes.price" "5") ∧
      (priced double).expand ∅ = .ok (priced "EUR $") ∧
      ¬ Outcome ∅ (priced digit) ((priced digit).expand ∅) ∧
      ¬ Outcome ∅ (priced double) ((priced double).expand ∅) := by
  intro digit double
  have hkeptDigit : Replaced ∅ digit "EUR $5" :=
    replaced_price (by decide +kernel : ¬ "$\x7b".toList <:+: " $5".toList)
  have hkeptDouble : Replaced ∅ double "EUR $$" :=
    replaced_price (by decide +kernel : ¬ "$\x7b".toList <:+: " $$".toList)
  have hdigit : (priced digit).expand ∅ = .error (.unsetVariable "attributes.price" "5") := by
    have hscan : scan 0 digit.toList =
        [.variable "CUR" (some "EUR"), .char ' ', .variable "5" none] := by decide +kernel
    refine expand_unpriced ?_
    rw [expandSetting, if_pos (by decide +kernel), hscan]
    rfl
  have hdouble : (priced double).expand ∅ = .ok (priced "EUR $") := by
    have hscan : scan 0 double.toList =
        [.variable "CUR" (some "EUR"), .char ' ', .char '$'] := by decide +kernel
    refine expand_priced ?_
    rw [expandSetting, if_pos (by decide +kernel), hscan]
    exact congrArg Except.ok (by decide +kernel : String.join ["EUR", " ", "$"] = "EUR $")
  refine ⟨hkeptDigit, hkeptDouble, hdigit, hdouble, ?_, ?_⟩
  · exact not_outcome_priced hkeptDigit (by rw [hdigit]; exact nofun)
  · refine not_outcome_priced hkeptDouble fun heq => ?_
    have hsettings := congrArg settings (Except.ok.inj (hdouble.symm.trans heq))
    exact absurd (Prod.mk.inj (List.cons.inj hsettings).1).2 (by decide)

end ConfigFile

end DocPress
