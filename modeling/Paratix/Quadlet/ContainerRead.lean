/-
Module: Paratix.Quadlet.ContainerRead
Purpose: When the rendered `.container` file is read back as it was meant.
Main exports: containerSections, quadlet_container_iff
-/
import Paratix.Quadlet.ContainerSettings

namespace Paratix.Quadlet

open Foundation Archive
open Timer (UnitMeaning ENVIRONMENT readEnvironment meaningOf meaningOf_setting
  meaningOf_environment)

/-! ### The file -/

section Rendering

theorem renderQuadletSection_eq (name : Text) (lines : List Text) :
    renderQuadletSection name lines = fileText '\n' (('[' :: (name ++ [']'])) :: lines) := by
  have isText : text "\n" = ['\n'] := rfl
  have behind : ∀ rows : List Text, (rows ++ [[]]).flatMap (['\n'] ++ ·) =
      '\n' :: fileText '\n' rows := by
    intro rows
    induction rows with
    | nil => rfl
    | cons row rows ih =>
      rw [List.cons_append, List.flatMap_cons, ih, fileText_cons]
      rfl
  rw [renderQuadletSection, isText, intercalate_cons, behind, fileText_cons]

theorem intercalate_cons_cons (separator first next : Text) (rest : List Text) :
    separator.intercalate (first :: next :: rest) =
      first ++ (separator ++ separator.intercalate (next :: rest)) := by
  rw [intercalate_cons, intercalate_cons, List.flatMap_cons, List.append_assoc]

/-- An empty line stands between two sections. -/
theorem intercalate_sections (sections : List (Text × List QuadletSetting)) :
    (text "\n").intercalate (sections.map fun one =>
        renderQuadletSection one.1 (one.2.map QuadletSetting.line)) =
      unitText (sectionLines QuadletSetting.key QuadletSetting.written sections) := by
  have linesOf : ∀ settings : List QuadletSetting,
      (settings.map fun setting => UnitLine.entry setting.key setting.written).map
        UnitLine.text = settings.map QuadletSetting.line := fun settings => List.map_map
  induction sections with
  | nil => rfl
  | cons one sections ih =>
    obtain ⟨sectionName, settings⟩ := one
    cases sections with
    | nil =>
      rw [List.map_cons, List.map_nil, intercalate_cons, List.flatMap_nil, List.append_nil,
        renderQuadletSection_eq, unitText, sectionLines, List.map_cons, linesOf]
      rfl
    | cons next sections =>
      rw [List.map_cons] at ih
      rw [List.map_cons, List.map_cons, intercalate_cons_cons, ih, renderQuadletSection_eq]
      show _ = fileText '\n' ((UnitLine.header sectionName ::
        (settings.map fun setting => UnitLine.entry setting.key setting.written) ++
          .blank :: sectionLines QuadletSetting.key QuadletSetting.written
            (next :: sections)).map UnitLine.text)
      rw [List.map_append, List.map_cons, linesOf, List.map_cons, fileText_append]
      simp only [fileText_cons]
      rfl

end Rendering

section Entries

variable (notBehind : Text → Text → Bool) (options : QuadletContainerOptions)

/-- What the container is meant to be: its sections with their entries. -/
def sectionsWith (wantedBy : Text) : List (Text × List QuadletSetting) :=
  [(text "Unit", unitSettings options), (text "Container", containerSettings notBehind options)] ++
    (if serviceSettings options = [] then [] else [(text "Service", serviceSettings options)]) ++
    [(text "Install", [.plain (text "WantedBy") wantedBy])]

/-- The sections without the last entry. -/
def sectionsBefore : List (Text × List QuadletSetting) :=
  [(text "Unit", unitSettings options), (text "Container", containerSettings notBehind options)] ++
    (if serviceSettings options = [] then [] else [(text "Service", serviceSettings options)]) ++
    [(text "Install", [])]

def containerSections : List (Text × List QuadletSetting) :=
  sectionsWith notBehind options (containerWantedBy options)

def intendedContainer : List UnitMeaning :=
  (sectionSettings (containerSections notBehind options)).map fun entry => entry.2.meaning entry.1

variable {notBehind options}

theorem proper_setting {setting : QuadletSetting} (proper : setting.Proper) :
    IsUnitName setting.key ∧ '\n' ∉ setting.written := by
  cases setting with
  | plain key value => exact ⟨proper.1, proper.2.2⟩
  | assigned key value =>
    have isName : IsUnitName ENVIRONMENT := ⟨by decide, forall_mem_of_all (by decide)⟩
    refine ⟨isName, ?_⟩
    show '\n' ∉ key ++ '=' :: quotedEnvironmentValue value
    rw [List.mem_append, List.mem_cons]
    rintro (inKey | same | inValue)
    · exact Timer.environmentKey_notMem proper.1 (by decide) inKey
    · cases same
    · exact newline_notMem_quoted proper.2 inValue

/-- Accepted options have proper entries, and the file holds their lines without the white space at
its end. -/
theorem generateContainerQuadlet_ok {content : Text}
    (rendered : generateContainerQuadlet notBehind options = .ok content) :
    (∀ entry ∈ sectionSettings (containerSections notBehind options), entry.2.Proper) ∧
      content = trimEnd (unitText (sectionLines QuadletSetting.key QuadletSetting.written
        (containerSections notBehind options))) := by
  obtain ⟨serviceLines, isService, rendered⟩ := ok_of_bind rendered
  obtain ⟨unitSection, isUnit, rendered⟩ := ok_of_bind rendered
  obtain ⟨containerLines, isContainer, rendered⟩ := ok_of_bind rendered
  obtain ⟨installSection, isInstall, rendered⟩ := ok_of_bind rendered
  obtain ⟨description, isDescription, isUnit⟩ := ok_of_bind isUnit
  obtain ⟨wantedBy, isWantedBy, isInstall⟩ := ok_of_bind isInstall
  cases isUnit
  cases isInstall
  cases rendered
  obtain ⟨rfl, serviceProper⟩ := writes_service options serviceLines isService
  obtain ⟨rfl, containerProper⟩ := writes_container notBehind options containerLines isContainer
  obtain ⟨isLine, descriptionProper⟩ := writtenAs_line (by decide) isDescription
  obtain ⟨isLast, wantedByProper⟩ := writtenAs_line (by decide) isWantedBy
  have networkOnline : ∀ key, IsPlainKey key →
      (QuadletSetting.plain key (text "network-online.target")).Proper := by
    intro key isKey
    exact ⟨⟨isKey.1, List.all_eq_true.1 isKey.2.1⟩, isKey.2.2, by decide⟩
  constructor
  · have unitProper : ∀ setting ∈ unitSettings options, setting.Proper := by
      rw [unitSettings, List.forall_mem_cons, List.forall_mem_cons, List.forall_mem_singleton]
      exact ⟨descriptionProper _ List.mem_cons_self, networkOnline _ (by decide),
        networkOnline _ (by decide)⟩
    intro entry mem
    obtain ⟨one, inSections, inOne⟩ := List.mem_flatMap.1 mem
    obtain ⟨setting, inSettings, rfl⟩ := List.mem_map.1 inOne
    rw [containerSections, sectionsWith, List.mem_append, List.mem_append, List.mem_pair,
      List.mem_singleton] at inSections
    rcases inSections with ((rfl | rfl) | isOne) | rfl
    · exact unitProper setting inSettings
    · exact containerProper setting inSettings
    · split at isOne
      · cases isOne
      · rw [List.mem_singleton] at isOne
        rw [isOne] at inSettings
        exact serviceProper setting inSettings
    · exact wantedByProper setting inSettings
  · have descriptionLine : description =
        (QuadletSetting.plain (text "Description") (containerDescription options)).line :=
      (List.cons.inj isLine).1
    have lastLine : wantedBy =
        (QuadletSetting.plain (text "WantedBy") (containerWantedBy options)).line :=
      (List.cons.inj isLast).1
    rw [← intercalate_sections, containerSections, sectionsWith, descriptionLine, lastLine]
    cases isEmpty : serviceSettings options with
    | nil => rfl
    | cons setting settings => rfl

/-! ### White space at the end -/

/-- The target of the installation is the last line. -/
theorem sectionLines_wantedBy (notBehind : Text → Text → Bool)
    (options : QuadletContainerOptions) (wantedBy : Text) :
    sectionLines QuadletSetting.key QuadletSetting.written
        (sectionsWith notBehind options wantedBy) =
      sectionLines QuadletSetting.key QuadletSetting.written (sectionsBefore notBehind options) ++
        [.entry (text "WantedBy") wantedBy] :=
  sectionLines_concat QuadletSetting.key QuadletSetting.written _ _ [] _

theorem trimEnd_setting (front value : Text) :
    trimEnd (front ++ '=' :: value) = front ++ '=' :: trimEnd value := by
  have isTrimmed : trimEnd ('=' :: value) = '=' :: trimEnd value := by
    by_cases blank : trimEnd value = []
    · rw [blank]
      exact trimEnd_append_blank ['='] (trimEnd_eq_nil_iff.1 blank)
    · exact trimEnd_append ['='] blank
  rw [trimEnd_append front (by rw [isTrimmed]; exact List.cons_ne_nil _ _), isTrimmed]

theorem sectionSettings_wantedBy (notBehind : Text → Text → Bool)
    (options : QuadletContainerOptions) (wantedBy : Text) :
    sectionSettings (sectionsWith notBehind options wantedBy) =
      sectionSettings (sectionsBefore notBehind options) ++
        [(text "Install", .plain (text "WantedBy") wantedBy)] := by
  have before : sectionSettings (sectionsBefore notBehind options) = sectionSettings
      ([(text "Unit", unitSettings options),
        (text "Container", containerSettings notBehind options)] ++
      (if serviceSettings options = [] then []
        else [(text "Service", serviceSettings options)])) := by
    rw [sectionsBefore, sectionSettings, List.flatMap_append]
    exact List.append_nil _
  rw [before]
  exact List.flatMap_append

theorem sectionName_of_mem {wantedBy : Text} {one : Text × List QuadletSetting}
    (mem : one ∈ sectionsWith notBehind options wantedBy) : IsUnitName one.1 := by
  have names : ∀ name ∈ [text "Unit", text "Container", text "Service", text "Install"],
      name ≠ [] ∧ name.all Char.isAlphanum = true := forall_mem_of_all (by decide)
  have isName : ∀ name ∈ [text "Unit", text "Container", text "Service", text "Install"],
      IsUnitName name := fun name inNames =>
    ⟨(names name inNames).1, List.all_eq_true.1 (names name inNames).2⟩
  apply isName
  simp only [sectionsWith, List.mem_append, List.mem_cons, List.not_mem_nil, or_false] at mem
  rcases mem with ((rfl | rfl) | isOne) | rfl
  · exact List.mem_cons_self
  · exact List.mem_cons_of_mem _ List.mem_cons_self
  · split at isOne
    · cases isOne
    · rw [List.mem_singleton.1 isOne]
      exact List.mem_cons_of_mem _ (List.mem_cons_of_mem _ List.mem_cons_self)
  · exact List.mem_cons_of_mem _ (List.mem_cons_of_mem _ (List.mem_cons_of_mem _
      List.mem_cons_self))

theorem properSections {wantedBy : Text}
    (proper : ∀ entry ∈ sectionSettings (sectionsWith notBehind options wantedBy), entry.2.Proper) :
    ProperSections QuadletSetting.key QuadletSetting.written
      (sectionsWith notBehind options wantedBy) :=
  ⟨fun _ mem => sectionName_of_mem mem, fun entry mem => proper_setting (proper entry mem)⟩

/-- The file is read as if the last value had no white space at its end. -/
theorem readUnit_generated {content : Text}
    (rendered : generateContainerQuadlet notBehind options = .ok content) :
    (∀ entry ∈ sectionSettings
        (sectionsWith notBehind options (trimEnd (containerWantedBy options))),
      entry.2.Proper) ∧
      readUnit content = readUnit (unitText (sectionLines QuadletSetting.key QuadletSetting.written
        (sectionsWith notBehind options (trimEnd (containerWantedBy options))))) := by
  obtain ⟨proper, rfl⟩ := generateContainerQuadlet_ok rendered
  have isFront := sectionLines_wantedBy notBehind options
  have isCommon := sectionSettings_wantedBy notBehind options
  have trimmedProper : ∀ entry ∈ sectionSettings
      (sectionsWith notBehind options (trimEnd (containerWantedBy options))), entry.2.Proper := by
    rw [containerSections, isCommon, List.forall_mem_append, List.forall_mem_singleton] at proper
    rw [isCommon, List.forall_mem_append, List.forall_mem_singleton]
    exact ⟨proper.1, proper.2.1, proper.2.2.1,
      fun mem => proper.2.2.2 ((isPrefix_trimEnd _).subset mem)⟩
  have lastProper := sectionLines_proper (properSections trimmedProper)
  refine ⟨trimmedProper, ?_⟩
  rw [isFront] at lastProper
  rw [containerSections, isFront, isFront, ← readUnit_unterminated lastProper
    (List.append_ne_nil_of_right_ne_nil _ (List.cons_ne_nil _ _))]
  congr 1
  have isText : ∀ front : List UnitLine,
      unitText (front ++ [UnitLine.entry (text "WantedBy") (containerWantedBy options)]) =
        fileText '\n' (front.map UnitLine.text) ++ text "WantedBy" ++
          '=' :: (containerWantedBy options ++ ['\n']) := by
    intro front
    rw [unitText, List.map_append, fileText_append, List.map_singleton, fileText_cons]
    simp [UnitLine.text, fileText]
  have isBlank : ∀ char ∈ ['\n'], isJsSpace char = true := List.forall_mem_singleton.2 rfl
  rw [isText, trimEnd_setting, trimEnd_append_blank _ isBlank, List.append_assoc]
  rfl

/-! ### Reading back -/

/-- No value that is written without quotes has blanks around it or a backslash at its end, and the
last one has no white space there. -/
def PlainQuadletValues (notBehind : Text → Text → Bool) (options : QuadletContainerOptions) :
    Prop :=
  (∀ entry ∈ sectionSettings (containerSections notBehind options), ∀ key value,
    entry.2 = .plain key value → StandsAsWritten value) ∧
    trimEnd (containerWantedBy options) = containerWantedBy options

/-- An entry that stands is read as it was meant. -/
theorem meaningOf_settingDirective (resolve : Char → Option Text) {entry : Text × QuadletSetting}
    (proper : entry.2.Proper) :
    meaningOf resolve (settingDirective QuadletSetting.key QuadletSetting.written entry) =
      entry.2.meaning entry.1 := by
  obtain ⟨sectionName, setting⟩ := entry
  cases setting with
  | plain key value => exact meaningOf_setting resolve proper.2.1
  | assigned key value =>
    rw [meaningOf_environment resolve rfl]
    show UnitMeaning.assignments sectionName
      (readEnvironment resolve (key ++ '=' :: quotedEnvironmentValue value)) = _
    rw [readEnvironment_quoted resolve proper.1]
    rfl

theorem stands_iff {setting : QuadletSetting} (proper : setting.Proper) :
    StandsAsWritten setting.written ↔
      ∀ key value, setting = .plain key value → StandsAsWritten value := by
  cases setting with
  | plain key value =>
    constructor
    · intro stands other otherValue same
      rw [← (QuadletSetting.plain.inj same).2]
      exact stands
    · intro stands
      exact stands key value rfl
  | assigned key value => exact iff_of_true (standsAsWritten_assigned proper.1) nofun

/-- A setting that is read with another value is read as another one. -/
theorem meaningOf_other (resolve : Char → Option Text) {entry : Text × QuadletSetting}
    (proper : entry.2.Proper) (standsNot : ¬StandsAsWritten entry.2.written) {other : Text}
    (differs : other ≠ entry.2.written) :
    meaningOf resolve ⟨entry.1, entry.2.key, other⟩ ≠ entry.2.meaning entry.1 := by
  obtain ⟨sectionName, setting⟩ := entry
  cases setting with
  | plain key value =>
    rw [meaningOf_setting resolve (by exact proper.2.1)]
    intro same
    exact differs (UnitMeaning.setting.inj same).2.2
  | assigned key value => exact absurd (standsAsWritten_assigned proper.1) standsNot

theorem intendedContainer_eq (notBehind : Text → Text → Bool) (options : QuadletContainerOptions) :
    intendedContainer notBehind options = (sectionSettings (sectionsBefore notBehind options)).map
          (fun entry => entry.2.meaning entry.1) ++
        [.setting (text "Install") (text "WantedBy") (containerWantedBy options)] := by
  rw [intendedContainer, containerSections, sectionSettings_wantedBy, List.map_append,
    List.map_singleton]
  rfl

section LastEntry

variable (resolve : Char → Option Text) {wantedBy : Text} {meanings : List UnitMeaning}
  (proper : ∀ entry ∈ sectionSettings (sectionsWith notBehind options wantedBy),
    entry.2.Proper)
  (reads : (readUnit (unitText (sectionLines QuadletSetting.key QuadletSetting.written
      (sectionsWith notBehind options wantedBy)))).map (·.map (meaningOf resolve)) =
    some ((sectionSettings (sectionsBefore notBehind options)).map
      (fun entry => entry.2.meaning entry.1) ++ meanings))

include proper reads

/-- An entry before the last one that does not stand is read otherwise. -/
theorem before_stands : ∀ entry ∈ sectionSettings (sectionsBefore notBehind options),
    StandsAsWritten entry.2.written := by
  by_contra standsNot
  obtain ⟨result, isResult, isIntended⟩ := Option.map_eq_some_iff.1 reads
  have isCommon := sectionSettings_wantedBy notBehind options wantedBy
  have someNot : ¬∀ entry ∈ sectionSettings (sectionsWith notBehind options wantedBy),
      StandsAsWritten entry.2.written := by
    intro stands
    rw [isCommon, List.forall_mem_append] at stands
    exact standsNot stands.1
  obtain ⟨before, entry, behind, other, rest, isSettings, stands, differs, otherValue, isRead⟩ :=
    readUnit_sectionLines_differs (properSections proper) someNot isResult
  have isProper : entry.2.Proper := by
    apply proper
    rw [isSettings]
    exact List.mem_append_right _ List.mem_cons_self
  -- the first entry that does not stand is not the last one
  obtain ⟨after, isBefore⟩ : ∃ after,
      sectionSettings (sectionsBefore notBehind options) = before ++ entry :: after := by
    rw [isCommon] at isSettings
    rcases List.append_eq_append_iff.1 isSettings with ⟨more, isBefore, _⟩ | ⟨more, isFront, isBack⟩
    · rw [isBefore, List.forall_mem_append] at stands
      exact absurd stands.1 standsNot
    · cases more with
      | nil =>
        rw [List.append_nil] at isFront
        rw [isFront] at standsNot
        exact absurd stands standsNot
      | cons own after =>
        rw [List.cons_append, List.cons.injEq] at isBack
        exact ⟨after, by rw [isFront, isBack.1]⟩
  rw [isRead, isBefore, List.map_append, List.map_append, List.map_cons, List.map_cons,
    List.map_map, List.append_assoc] at isIntended
  have sameEntry := (List.append_inj isIntended (by simp)).2
  exact meaningOf_other resolve isProper differs otherValue (List.cons.inj sameEntry).1

/-- The value of the last entry is read as it is written, or as another one that is not longer. -/
theorem last_read {target : Text}
    (isTarget : meanings = [.setting (text "Install") (text "WantedBy") target]) :
    target.length ≤ wantedBy.length ∧ (target = wantedBy → StandsAsWritten wantedBy) := by
  have stands := before_stands resolve proper reads
  obtain ⟨result, isResult, isIntended⟩ := Option.map_eq_some_iff.1 reads
  have isCommon := sectionSettings_wantedBy notBehind options wantedBy
  have isPlain : text "WantedBy" ≠ ENVIRONMENT := by decide
  rw [isTarget] at isIntended
  by_cases lastStands : StandsAsWritten wantedBy
  · refine ⟨?_, fun _ => lastStands⟩
    have allStand : ∀ entry ∈ sectionSettings (sectionsWith notBehind options wantedBy),
        StandsAsWritten entry.2.written := by
      rw [isCommon, List.forall_mem_append, List.forall_mem_singleton]
      exact ⟨stands, lastStands⟩
    rw [readUnit_sectionLines (properSections proper) allStand, Option.some.injEq] at isResult
    rw [← isResult, isCommon, List.map_append, List.map_append, List.map_map, List.map_singleton,
      List.map_singleton] at isIntended
    have sameLast := (List.append_inj isIntended (by simp)).2
    have isMeaning := (List.cons.inj sameLast).1
    rw [meaningOf_setting resolve (by exact isPlain)] at isMeaning
    rw [← (UnitMeaning.setting.inj isMeaning).2.2]
    exact Nat.le_refl _
  · have lineStands : ∀ line ∈ sectionLines QuadletSetting.key QuadletSetting.written
        (sectionsBefore notBehind options), line.Stands := by
      intro line mem
      rcases mem_sectionLines mem with rfl | ⟨one, _, rfl⟩ | ⟨entry, inSettings, rfl⟩
      · exact trivial
      · exact trivial
      · exact stands entry inSettings
    have lineProper := sectionLines_proper (properSections proper)
    rw [sectionLines_wantedBy] at lineProper isResult
    obtain ⟨sectionName, inSection⟩ : ∃ name, sectionBehind none (sectionLines
        QuadletSetting.key QuadletSetting.written (sectionsBefore notBehind options)) =
          some name := exists_sectionBehind (text "Unit") _
    obtain ⟨other, rest, differs, isShort, isRead⟩ :=
      readUnit_unitText_differs lineProper lineStands inSection lastStands isResult
    rw [isRead, directivesFrom_sectionLines, List.map_append, List.map_map, List.map_cons]
      at isIntended
    have sameLast := (List.append_inj isIntended (by simp)).2
    have isMeaning := (List.cons.inj sameLast).1
    rw [meaningOf_setting resolve (by exact isPlain)] at isMeaning
    have isOther := (UnitMeaning.setting.inj isMeaning).2.2
    rw [← isOther]
    exact ⟨isShort rfl, fun same => absurd same differs⟩

end LastEntry

/-- For all options that are accepted: the file is read back as it was meant, every entry in its
section and every variable with its value, exactly if no unquoted value has blanks around it or a
backslash at its end and the last one has no white space there. -/
theorem quadlet_container_iff {content : Text}
    (accepted : quadletContainer notBehind options = .ok content)
    (resolve : Char → Option Text) :
    (readUnit content).map (·.map (meaningOf resolve)) =
        some (intendedContainer notBehind options) ↔
      PlainQuadletValues notBehind options := by
  obtain ⟨_, _, accepted⟩ := ok_of_bind accepted
  obtain ⟨_, _, rendered⟩ := ok_of_bind accepted
  obtain ⟨proper, reads⟩ := readUnit_generated rendered
  obtain ⟨ownProper, _⟩ := generateContainerQuadlet_ok rendered
  rw [reads, intendedContainer_eq]
  constructor
  · intro readsBack
    have stands := before_stands resolve proper readsBack
    obtain ⟨isShort, lastStands⟩ := last_read resolve proper readsBack rfl
    have isTrimmed : trimEnd (containerWantedBy options) = containerWantedBy options :=
      (isPrefix_trimEnd _).eq_of_length_le isShort
    refine ⟨?_, isTrimmed⟩
    have allStand : ∀ entry ∈ sectionSettings (containerSections notBehind options),
        StandsAsWritten entry.2.written := by
      rw [containerSections, sectionSettings_wantedBy, List.forall_mem_append,
        List.forall_mem_singleton]
      refine ⟨stands, ?_⟩
      rw [← isTrimmed]
      exact lastStands isTrimmed.symm
    exact fun entry mem => (stands_iff (ownProper entry mem)).1 (allStand entry mem)
  · rintro ⟨stands, isTrimmed⟩
    rw [isTrimmed, ← intendedContainer_eq]
    have allStand : ∀ entry ∈ sectionSettings (containerSections notBehind options),
        StandsAsWritten entry.2.written := fun entry mem =>
      (stands_iff (ownProper entry mem)).2 (stands entry mem)
    have readsAll := readUnit_sectionLines (properSections ownProper) allStand
    rw [readsAll, Option.map_some, Option.some.injEq, List.map_map, intendedContainer]
    exact List.map_congr_left fun entry mem =>
      meaningOf_settingDirective resolve (ownProper entry mem)

end Entries

/-! ### Containers that are read back and others -/

def sampleOptions (exec value : String) : QuadletContainerOptions :=
  { image := text "nginx", name := text "web", exec := some [text exec],
    environment := some [(text "KEY", text value)], workingDir := some (text "/srv") }

/-- `%h` is a home directory. -/
def sampleResolve (specifier : Char) : Option Text :=
  if specifier = 'h' then some (text "/root") else none

theorem quoted_container_reads_back :
    ∃ content, quadletContainer (fun _ _ => true) (sampleOptions "serve" "50% of \"%h\"") =
        .ok content ∧
      (readUnit content).map (·.map (meaningOf sampleResolve)) =
        some (intendedContainer (fun _ _ => true) (sampleOptions "serve" "50% of \"%h\"")) := by
  have isOk : (quadletContainer (fun _ _ => true)
      (sampleOptions "serve" "50% of \"%h\"")).isOk = true := by
    decide +kernel
  cases isContent : quadletContainer (fun _ _ => true)
      (sampleOptions "serve" "50% of \"%h\"") with
  | error cause =>
    rw [isContent] at isOk
    cases isOk
  | ok content =>
    refine ⟨content, rfl, (quadlet_container_iff isContent sampleResolve).2 ⟨?_, by decide⟩⟩
    have allStand : ∀ entry ∈ sectionSettings (containerSections (fun _ _ => true)
        (sampleOptions "serve" "50% of \"%h\"")), StandsAsWritten entry.2.written :=
      forall_mem_of_all (by decide +kernel)
    intro entry mem key value isEntry
    have stands := allStand entry mem
    rw [isEntry] at stands
    exact stands

/-- A command that ends in a backslash takes the next entry with it. -/
theorem backslash_joins_entries :
    (quadletContainer (fun _ _ => true) (sampleOptions "sh -c ls \\" "x")).toOption.bind
        (fun content => (readUnit content).map (·.map (meaningOf sampleResolve))) =
      some [.setting (text "Unit") (text "Description") (text "Podman container: web"),
        .setting (text "Unit") (text "Wants") (text "network-online.target"),
        .setting (text "Unit") (text "After") (text "network-online.target"),
        .setting (text "Container") (text "Image") (text "nginx"),
        .setting (text "Container") (text "Exec") (text "sh -c ls  WorkingDir=/srv"),
        .assignments (text "Container") [(text "KEY", text "x")],
        .setting (text "Install") (text "WantedBy") (text "multi-user.target")] := by
  decide +kernel

end Paratix.Quadlet
