import DocPress.Proofs.Settings

/-! Loading a named file. What a load comes to is told by look-ups, in the file and in what the host
sets; a load that fails has a cause that is named. A file that is not valid by itself stays so,
whatever the host sets. -/

namespace DocPress

set_option autoImplicit false

open Segment

/-! ### Required variables -/

/-- Whether the expansion of a setting asks for a variable that has no default. -/
def Requires (value name : String) : Prop :=
  "$\x7b".toList <:+: value.toList ∧ .variable name none ∈ scan 0 value.toList

theorem value?_of_mapM {env : Environment} {segments : List Segment} {parts : List (List Char)}
    (h : segments.mapM (value? env) = some parts) :
    ∀ s ∈ segments, (s.value? env).isSome = true := by
  intro s hs
  rw [Option.isSome_iff_ne_none]
  intro hnone
  obtain ⟨before, after, rfl⟩ := List.append_of_mem hs
  simp [List.mapM_append, List.mapM_cons, hnone] at h

/-- A setting expands if the variables it requires have values; otherwise one is named that has
none. -/
theorem expandSetting_requires (env : Environment) (value : String) :
    (∃ new, expandSetting env value = .ok new ∧
      ∀ name, Requires value name → (env.get? name).isSome = true) ∨
    ∃ name, expandSetting env value = .error name ∧ Requires value name ∧
      env.get? name = none := by
  rw [expandSetting, Text.contains]
  by_cases hopens : "$\x7b".toList <:+: value.toList
  · rw [if_pos (Text.occursIn_iff.mpr hopens)]
    rcases mapM_expand env (scan 0 value.toList) with
      ⟨parts, hparts, hexpand⟩ | ⟨before, name, default, after, hsplit, -, hunset, hexpand⟩
    · rw [hexpand]
      refine .inl ⟨_, rfl, fun name hname => ?_⟩
      simpa [value?] using value?_of_mapM hparts _ hname.2
    · rw [hexpand]
      obtain ⟨hname, rfl⟩ : env.get? name = none ∧ default = none := by
        simpa [value?] using hunset
      exact .inr ⟨name, rfl, ⟨hopens, by simp [hsplit]⟩, hname⟩
  · rw [if_neg fun hm => hopens (Text.occursIn_iff.mp hm)]
    exact .inl ⟨value, rfl, fun name hname => absurd hname.1 hopens⟩

namespace ConfigFile

variable {env : Environment} {f : ConfigFile}

/-- Either all settings of a file expand, or one requires a variable that has no value. -/
theorem expand_requires (env : Environment) (f : ConfigFile) :
    ((∀ s ∈ f.settings, expandSetting env s.2 = .ok (expanded env s.2)) ∧
      f.expand env = .ok (f.withSettings (expanded env))) ∨
    ∃ s ∈ f.settings, ∃ name, Requires s.2 name ∧ env.get? name = none ∧
      f.expand env = .error (.unsetVariable s.1 name) := by
  rw [expand_steps env f]
  cases hfault : f.settings.findSome? (fault? env) with
  | none =>
    rw [List.findSome?_eq_none_iff] at hfault
    refine .inl ⟨fun s hs => ?_, rfl⟩
    rcases expandSetting_requires env s.2 with ⟨new, hnew, -⟩ | ⟨name, hname, -⟩
    · rw [(fault?_of_ok hnew).2]
      exact hnew
    · exact absurd ((hfault s hs).symm.trans (fault?_of_error hname)) nofun
  | some e =>
    obtain ⟨s, hs, hfault⟩ := List.exists_of_findSome?_eq_some hfault
    rcases expandSetting_requires env s.2 with ⟨new, hnew, -⟩ | ⟨name, hname, hrequires, hunset⟩
    · rw [(fault?_of_ok hnew).1] at hfault
      exact absurd hfault nofun
    · rw [fault?_of_error hname] at hfault
      obtain rfl := Option.some.inj hfault
      exact .inr ⟨s, hs, name, hrequires, hunset, rfl⟩

/-- Whether a file that can be read holds these settings. -/
def HeldAt (files : Files) (path : String) (f : ConfigFile) : Prop :=
  ∃ content, files.read path = .ok content ∧ parse content = .ok f

end ConfigFile

theorem Files.exists?_of_read {files : Files} {path content : String}
    (h : files.read path = .ok content) : files.exists? path = true := by
  unfold Files.exists?
  unfold Files.read at h
  cases hfind : files.find path with
  | ok tree => rfl
  | error cause =>
    rw [hfind] at h
    cases h

/-- What the host sets for an attribute: the last of its values. -/
def Overrides.attr? (o : Overrides) (name : String) : Option String :=
  o.attributes.reverse.lookup name

namespace Config

/-! ### Faults -/

/-- The faults of settings, each with the message that names it. -/
inductive Faulty (c : Config) : Invalid → Prop where
  | baseDir (h : c.written = some "" ∨ c.baseDir = "") : Faulty c .emptyBaseDir
  | emptyName (h : c.attributes.contains "" = true) : Faulty c .emptyAttributeName
  | blankName {name : String} (h : c.attributes.contains name = true)
    (hblank : ∃ char ∈ name.toList, Text.isBlank char = true) :
    Faulty c (.blankInAttributeName name)
  | title {lang : String} {links : List NavLink} {l : NavLink}
    (h : c.chrome.navigation.get? lang = some links) (hl : l ∈ links) (hempty : l.title = "") :
    Faulty c (.emptyTitle lang)
  | href {lang : String} {links : List NavLink} {l : NavLink}
    (h : c.chrome.navigation.get? lang = some links) (hl : l ∈ links) (hempty : l.href = "") :
    Faulty c (.emptyHref lang)

/-- Whether settings have no fault. -/
def Valid (c : Config) : Prop := ∀ cause, ¬ c.Faulty cause

/-- A fault that the check of an attribute name finds is one of the settings. -/
theorem faulty_of_attributeFault? {c : Config} {name : String} {cause : Invalid}
    (hname : c.attributes.contains name = true) (h : attributeFault? name = some cause) :
    c.Faulty cause := by
  unfold attributeFault? at h
  split at h
  · rename_i hempty
    obtain rfl := Option.some.inj h
    rw [String.isEmpty_iff.1 hempty] at hname
    exact .emptyName hname
  · split at h
    · rename_i hblank
      obtain rfl := Option.some.inj h
      exact .blankName hname (List.any_eq_true.1 hblank)
    · cases h

theorem faulty_of_linkFault? {c : Config} {lang : String} {links : List NavLink} {l : NavLink}
    {cause : Invalid} (hlinks : c.chrome.navigation.get? lang = some links) (hl : l ∈ links)
    (h : linkFault? lang l = some cause) : c.Faulty cause := by
  unfold linkFault? at h
  split at h
  · rename_i hempty
    obtain rfl := Option.some.inj h
    exact .title hlinks hl (String.isEmpty_iff.1 hempty)
  · split at h
    · rename_i hempty
      obtain rfl := Option.some.inj h
      exact .href hlinks hl (String.isEmpty_iff.1 hempty)
    · cases h

theorem attributeFault?_eq_none {name : String} : attributeFault? name = none ↔
    name ≠ "" ∧ ¬ ∃ char ∈ name.toList, Text.isBlank char = true := by
  unfold attributeFault?
  split
  · rename_i h
    simp_all
  · split
    · rename_i h
      simp_all
    · simp_all

theorem linkFault?_eq_none {lang : String} {l : NavLink} :
    linkFault? lang l = none ↔ l.title ≠ "" ∧ l.href ≠ "" := by
  unfold linkFault?
  split
  · simp_all
  · split <;> simp_all

/-- The check finds a fault, or there is none. -/
theorem fault?_cases (c : Config) :
    (c.fault? = none ∧ c.Valid) ∨ ∃ cause, c.fault? = some cause ∧ c.Faulty cause := by
  unfold fault?
  by_cases hdir : c.written = some "" ∨ c.baseDir = ""
  · rw [if_pos (by simpa using hdir)]
    exact .inr ⟨_, rfl, .baseDir hdir⟩
  · rw [if_neg (by simpa using hdir)]
    cases hattrs : c.attributes.keys.findSome? attributeFault? with
    | some cause =>
      obtain ⟨name, hname, hfault⟩ := List.exists_of_findSome?_eq_some hattrs
      exact .inr ⟨cause, rfl, faulty_of_attributeFault? (SortedMap.mem_keys_iff.1 hname) hfault⟩
    | none =>
      rw [List.findSome?_eq_none_iff] at hattrs
      cases hnav : c.chrome.navigation.entries.findSome?
        (fun e => e.2.findSome? (linkFault? e.1)) with
      | some cause =>
        obtain ⟨e, he, hfault⟩ := List.exists_of_findSome?_eq_some hnav
        obtain ⟨l, hl, hfault⟩ := List.exists_of_findSome?_eq_some hfault
        exact .inr ⟨cause, rfl, faulty_of_linkFault? (SortedMap.mem_entries_iff.1 he) hl hfault⟩
      | none =>
        simp only [List.findSome?_eq_none_iff] at hnav
        have hname {name : String} (h : c.attributes.contains name = true) :=
          attributeFault?_eq_none.1 (hattrs name (SortedMap.mem_keys_iff.2 h))
        have hlink {lang : String} {links : List NavLink} {l : NavLink}
            (h : c.chrome.navigation.get? lang = some links) (hl : l ∈ links) :=
          linkFault?_eq_none.1 (hnav (lang, links) (SortedMap.mem_entries_iff.2 h) l hl)
        refine .inl ⟨rfl, fun cause hfault => ?_⟩
        cases hfault with
        | baseDir h => exact hdir h
        | emptyName h => exact (hname h).1 rfl
        | blankName h hblank => exact (hname h).2 hblank
        | title h hl hempty => exact (hlink h hl).1 hempty
        | href h hl hempty => exact (hlink h hl).2 hempty

theorem validated_cases (c : Config) :
    (c.validated = .ok c ∧ c.Valid) ∨
      ∃ cause, c.validated = .error (.invalid cause) ∧ c.Faulty cause := by
  unfold validated
  rcases c.fault?_cases with ⟨hnone, hvalid⟩ | ⟨cause, hsome, hfaulty⟩
  · rw [hnone]
    exact .inl ⟨rfl, hvalid⟩
  · rw [hsome]
    exact .inr ⟨cause, rfl, hfaulty⟩

/-! ### Settings of a file -/

/-- Whether settings are those of a file with all variables replaced, seen from the directory of the
file, and with what the host sets on top. -/
structure Composed (env : Environment) (path : String) (f : ConfigFile) (o : Option Overrides)
    (c : Config) : Prop where
  expands : ∀ s ∈ f.settings, expandSetting env s.2 = .ok (ConfigFile.expanded env s.2)
  written : c.written = f.baseDir.map (ConfigFile.expanded env)
  standalone : c.standalone = ((o.bind Overrides.standalone) <|> f.standalone).getD true
  baseDir : c.baseDir = (o.bind Overrides.baseDir).getD
    (Path.join (Path.parent path) ((f.baseDir.map (ConfigFile.expanded env)).getD "."))
  attributes : ∀ name, c.attributes.get? name =
    ((o.bind fun o => o.attr? name) <|> (f.attributes.get? name).map (ConfigFile.expanded env))
  navigation : ∀ lang, c.chrome.navigation.get? lang = (f.chrome.navigation.get? lang).map
    fun links => links.map fun l => { l with href := ConfigFile.expanded env l.href }
  footer : c.chrome.footer = f.chrome.footer
  origin : c.path = some path

section

variable {env : Environment} {path : String} {f : ConfigFile} {o : Option Overrides}

/-- A file and what the host sets come to one configuration. -/
theorem Composed.eq {c c' : Config} (h : Composed env path f o c) (h' : Composed env path f o c') :
    c = c' := by
  obtain ⟨written, standalone, baseDir, attributes, ⟨navigation, footer⟩, cpath⟩ := c
  obtain ⟨written', standalone', baseDir', attributes', ⟨navigation', footer'⟩, cpath'⟩ := c'
  obtain rfl : written = written' := h.written.trans h'.written.symm
  obtain rfl : standalone = standalone' := h.standalone.trans h'.standalone.symm
  obtain rfl : baseDir = baseDir' := h.baseDir.trans h'.baseDir.symm
  obtain rfl : attributes = attributes' :=
    SortedMap.eq_of_get? fun name => (h.attributes name).trans (h'.attributes name).symm
  obtain rfl : navigation = navigation' :=
    SortedMap.eq_of_get? fun lang => (h.navigation lang).trans (h'.navigation lang).symm
  obtain rfl : footer = footer' := h.footer.trans h'.footer.symm
  obtain rfl : cpath = cpath' := h.origin.trans h'.origin.symm
  rfl

theorem composed_resolve
    (h : ∀ s ∈ f.settings, expandSetting env s.2 = .ok (ConfigFile.expanded env s.2)) :
    Composed env path f none ((f.withSettings (ConfigFile.expanded env)).resolve path) where
  expands := h
  written := rfl
  standalone := rfl
  baseDir := rfl
  attributes name := SortedMap.get?_mapValues _ f.attributes name
  navigation lang := SortedMap.get?_mapValues _ f.chrome.navigation lang
  footer := rfl
  origin := rfl

theorem Composed.override {c : Config} (h : Composed env path f none c) (o : Overrides) :
    Composed env path f (some o) (c.override o) where
  expands := h.expands
  written := h.written
  standalone := by
    simp only [Config.override, h.standalone, Option.bind_some, Option.bind_none]
    cases o.standalone <;> rfl
  baseDir := by
    simp only [Config.override, h.baseDir, Option.bind_some, Option.bind_none, Option.getD_none]
  attributes name := by
    simp only [Config.override, SortedMap.get?_foldl_insert, h.attributes name, Option.bind_some,
      Option.bind_none]
    rfl
  navigation := h.navigation
  footer := h.footer
  origin := h.origin

end

/-! ### The load -/

/-- Whether settings are what a file can be loaded as: it holds settings that are valid by
themselves and stay so with what the host sets. -/
structure Loaded (files : Files) (env : Environment) (path : String) (o : Option Overrides)
    (f : ConfigFile) (c : Config) : Prop extends Composed env path f o c where
  held : f.HeldAt files path
  alone : ∃ c₀, Composed env path f none c₀ ∧ c₀.Valid
  valid : c.Valid

/-- The causes for which a file cannot be loaded, each with the error that names it. -/
inductive Refused (files : Files) (env : Environment) (path : String) (o : Option Overrides) :
    ConfigError → Prop where
  | missing (h : files.exists? path = false) : Refused files env path o (.notFound path)
  | unreadable {cause : FileError} (hfound : files.exists? path = true)
    (h : files.read path = .error cause) : Refused files env path o (.unreadable cause)
  | malformed {content : String} (hread : files.read path = .ok content)
    (h : ∀ f, ConfigFile.parse content ≠ .ok f) : Refused files env path o .malformed
  | unset {f : ConfigFile} (hf : f.HeldAt files path) {s : String × String} (hs : s ∈ f.settings)
    {name : String} (hname : Requires s.2 name) (hnone : env.get? name = none) :
    Refused files env path o (.unsetVariable s.1 name)
  | invalid {f : ConfigFile} (hf : f.HeldAt files path) {c : Config}
    (hc : Composed env path f none c) {cause : Invalid} (h : c.Faulty cause) :
    Refused files env path o (.invalid cause)
  | overridden {f : ConfigFile} (hf : f.HeldAt files path) {c : Config}
    (hc : Composed env path f o c) {cause : Invalid} (h : c.Faulty cause) :
    Refused files env path o (.invalid cause)

variable (files : Files) (env : Environment) (path : String) (o : Option Overrides)

theorem parse_cases (content : String) :
    (∃ f, ConfigFile.parse content = .ok f) ∨ ConfigFile.parse content = .error .malformed := by
  unfold ConfigFile.parse
  split
  · exact .inl ⟨_, rfl⟩
  · exact .inr rfl

section

variable {files env path}

theorem loadFile_of_read {content : String} (hread : files.read path = .ok content) :
    loadFile files env path = ConfigFile.parse content >>= fun f =>
      f.expand env >>= fun f => (f.resolve path).validated := by
  rw [loadFile, hread]
  rfl

theorem loadFile_of_held {f : ConfigFile} (hf : f.HeldAt files path) :
    loadFile files env path = f.expand env >>= fun f => (f.resolve path).validated := by
  obtain ⟨content, hread, hparse⟩ := hf
  rw [loadFile_of_read hread, hparse]
  rfl

end

/-- What reading and checking a file that exists does. -/
theorem loadFile_cases (hfound : files.exists? path = true) :
    (∃ f c, Loaded files env path none f c ∧ loadFile files env path = .ok c) ∨
      ∃ e, Refused files env path none e ∧ loadFile files env path = .error e := by
  cases hread : files.read path with
  | error cause =>
    refine .inr ⟨_, .unreadable hfound hread, ?_⟩
    rw [loadFile, hread]
    rfl
  | ok content =>
    rcases parse_cases content with ⟨f, hparse⟩ | hparse
    · have hf : f.HeldAt files path := ⟨content, hread, hparse⟩
      rw [loadFile_of_held hf]
      rcases f.expand_requires env with ⟨hexpands, hexpand⟩ | ⟨s, hs, name, hname, hnone, hexpand⟩
      · have hc : Composed env path f none _ := composed_resolve hexpands
        rw [hexpand]
        rcases validated_cases ((f.withSettings (ConfigFile.expanded env)).resolve path) with
          ⟨hok, hvalid⟩ | ⟨cause, herror, hfaulty⟩
        · exact .inl ⟨f, _, ⟨hc, hf, ⟨_, hc, hvalid⟩, hvalid⟩, hok⟩
        · exact .inr ⟨_, .invalid hf hc hfaulty, herror⟩
      · rw [hexpand]
        exact .inr ⟨_, .unset hf hs hname hnone, rfl⟩
    · rw [loadFile_of_read hread, hparse]
      refine .inr ⟨.malformed, .malformed hread fun f hf => ?_, rfl⟩
      exact absurd (hparse.symm.trans hf) nofun

/-- What speaks against a file by itself also does with what the host sets on top. -/
theorem Refused.under {e : ConfigError} (h : Refused files env path none e) :
    Refused files env path o e := by
  cases h with
  | missing h => exact .missing h
  | unreadable hfound h => exact .unreadable hfound h
  | malformed hread h => exact .malformed hread h
  | unset hf hs hname hnone => exact .unset hf hs hname hnone
  | invalid hf hc h => exact .invalid hf hc h
  | overridden hf hc h => exact .invalid hf hc h

theorem load_path : load files env (some path) o =
    (if files.exists? path then loadFile files env path else .error (.notFound path)).bind
      fun c => match o with
        | some o => (c.override o).validated
        | none => .ok c := rfl

/-- A load comes to settings of the file, or to an error with its cause. -/
theorem load_cases :
    (∃ f c, Loaded files env path o f c ∧ load files env (some path) o = .ok c) ∨
      ∃ e, Refused files env path o e ∧ load files env (some path) o = .error e := by
  rw [load_path]
  cases hfound : files.exists? path with
  | false => exact .inr ⟨_, .missing hfound, rfl⟩
  | true =>
    rcases loadFile_cases files env path hfound with ⟨f, c, hloaded, hok⟩ | ⟨e, hrefused, herror⟩
    · simp only [if_true, hok, Except.bind]
      cases o with
      | none => exact .inl ⟨f, c, hloaded, rfl⟩
      | some o =>
        have hc := hloaded.toComposed.override o
        rcases validated_cases (c.override o) with ⟨hok, hvalid⟩ | ⟨cause, herror, hfaulty⟩
        · exact .inl ⟨f, _, ⟨hc, hloaded.held, hloaded.alone, hvalid⟩, hok⟩
        · exact .inr ⟨_, .overridden hloaded.held hc hfaulty, herror⟩
    · simp only [if_true, herror, Except.bind]
      exact .inr ⟨e, hrefused.under files env path o, rfl⟩

section

variable {files : Files} {env : Environment} {path : String} {o : Option Overrides}

theorem held_eq {f f' : ConfigFile} (h : f.HeldAt files path) (h' : f'.HeldAt files path) :
    f = f' := by
  obtain ⟨content, hread, hparse⟩ := h
  obtain ⟨content', hread', hparse'⟩ := h'
  obtain rfl := Except.ok.inj (hread.symm.trans hread')
  exact Except.ok.inj (hparse.symm.trans hparse')

/-- A file that can be loaded has no cause against it. -/
theorem Loaded.not_refused {f : ConfigFile} {c : Config} (h : Loaded files env path o f c)
    {e : ConfigError} : ¬ Refused files env path o e := by
  intro hrefused
  obtain ⟨content, hread, hparse⟩ := h.held
  cases hrefused with
  | missing hmissing =>
    exact absurd ((Files.exists?_of_read hread).symm.trans hmissing) (by decide)
  | unreadable _ hfail => exact absurd (hread.symm.trans hfail) nofun
  | malformed hread' hnone =>
    obtain rfl := Except.ok.inj (hread.symm.trans hread')
    exact hnone f hparse
  | unset hf hs hname hnone =>
    obtain rfl := held_eq hf h.held
    rcases expandSetting_requires env _ with ⟨_, -, hset⟩ | ⟨_, herror, -⟩
    · have hsome := hset _ hname
      rw [hnone] at hsome
      cases hsome
    · exact absurd ((h.expands _ hs).symm.trans herror) nofun
  | invalid hf hc hfaulty =>
    obtain rfl := held_eq hf h.held
    obtain ⟨c₀, h₀, hvalid⟩ := h.alone
    rw [hc.eq h₀] at hfaulty
    exact hvalid _ hfaulty
  | overridden hf hc hfaulty =>
    obtain rfl := held_eq hf h.held
    rw [hc.eq h.toComposed] at hfaulty
    exact h.valid _ hfaulty

end

/-- Loading a named file comes to settings exactly if the file holds settings whose required
variables have values and which are valid by themselves and with what the host sets; it then comes
to these. Otherwise it comes to an error that names a cause, and what the host sets does not change
the error of a file that cannot be loaded by itself. -/
theorem load_composed (files : Files) (env : Environment) (path : String) (o : Option Overrides) :
    (∀ c, load files env (some path) o = .ok c ↔ ∃ f, Loaded files env path o f c) ∧
      (∀ c, load files env (some path) o = .ok c → c.validated = .ok c) ∧
      (∀ e, load files env (some path) o = .error e → Refused files env path o e) ∧
      (∀ e, Refused files env path o e → ∃ e', load files env (some path) o = .error e') ∧
      ∀ e, load files env (some path) none = .error e →
        load files env (some path) o = .error e := by
  have hcases := load_cases files env path o
  have hloaded (c : Config) (h : load files env (some path) o = .ok c) :
      ∃ f, Loaded files env path o f c := by
    rcases hcases with ⟨f, c', hf, hok⟩ | ⟨e, -, herror⟩
    · obtain rfl := Except.ok.inj (hok.symm.trans h)
      exact ⟨f, hf⟩
    · exact absurd (herror.symm.trans h) nofun
  refine ⟨fun c => ⟨hloaded c, ?_⟩, ?_, ?_, ?_, ?_⟩
  · rintro ⟨f, hf⟩
    rcases hcases with ⟨f', c', hf', hok⟩ | ⟨e, hrefused, -⟩
    · obtain rfl := held_eq hf.held hf'.held
      rw [hf.toComposed.eq hf'.toComposed]
      exact hok
    · exact absurd hrefused hf.not_refused
  · intro c h
    obtain ⟨f, hf⟩ := hloaded c h
    rcases c.validated_cases with ⟨hok, -⟩ | ⟨cause, -, hfaulty⟩
    · exact hok
    · exact absurd hfaulty (hf.valid cause)
  · intro e h
    rcases hcases with ⟨f, c, -, hok⟩ | ⟨e', hrefused, herror⟩
    · exact absurd (hok.symm.trans h) nofun
    · obtain rfl := Except.error.inj (herror.symm.trans h)
      exact hrefused
  · intro e hrefused
    rcases hcases with ⟨f, c, hf, -⟩ | ⟨e', -, herror⟩
    · exact absurd hrefused hf.not_refused
    · exact ⟨e', herror⟩
  · intro e h
    rw [load_path] at h ⊢
    revert h
    cases (if files.exists? path then loadFile files env path else .error (.notFound path)) with
    | error e' => exact id
    | ok c => exact nofun

example :
    let files : Files :=
      ⟨"/", .directory [("wl.toml", .text "[output]\nbase_dir = \"$\x7bDEST\x7d\"\n")], []⟩
    let o : Overrides := ⟨none, none, [("lang", "de"), ("lang", "en")]⟩
    (load files (.ofList [("DEST", "out")]) (some "/wl.toml") (some o)).toOption.map
      (fun c => (c.standalone, c.baseDir, c.attributes.entries)) =
        some (true, "/out", [("lang", "en")]) := by
  decide +kernel

end Config

end DocPress
