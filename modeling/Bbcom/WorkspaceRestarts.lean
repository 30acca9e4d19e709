-- The workspace commands (`commands/workspace/mod.rs`) are all or nothing, and a restart brings up
-- the workspace that was activated last: just when no step fails behind the point of no return.
import Bbcom.Lib.Runs
import Bbcom.WorkspaceManager

open bbcom.js bbcom.json bbcom.runs bbcom.workspace

namespace bbcom.workspace_manager

open WorkspaceManager List Option Function

variable {s t : WorkspaceManager} {io : Io} {id : WorkspaceUuid}

/-! ## Ids -/

theorem WorkspaceUuid.eq_of_value {a b : WorkspaceUuid} (h : a.value = b.value) : a = b := by
  cases a
  cases b
  cases h
  rfl

@[simp] theorem parseUuid_value (id : WorkspaceUuid) : parseUuid id.value = some id := by
  unfold parseUuid
  rw [dif_pos id.valid]

theorem parseUuid_eq_some {value : String} : parseUuid value = some id ↔ value = id.value := by
  constructor
  · intro h
    unfold parseUuid at h
    split at h
    · cases h
      rfl
    · cases h
  · rintro rfl
    exact parseUuid_value id

theorem isWhiteSpace_uuid {c : Char} (h : c ∈ id.value.toList) : isWhiteSpace c = false := by
  have hvalid := id.valid
  simp only [isWorkspaceUuid, Bool.and_eq_true, List.all_eq_true] at hvalid
  obtain ⟨⟨-, hall⟩, -⟩ := hvalid
  obtain ⟨index, hindex⟩ := mem_iff_getElem?.1 h
  have hc := hall (c, index) (by
    rw [List.mem_zipIdx_iff_getElem?]
    exact hindex)
  have hclass : c = '-' ∨ isHexDigit c = true := by
    simp only at hc
    split at hc
    · exact .inl (beq_iff_eq.1 hc)
    · exact .inr hc
  rcases hclass with rfl | hdigit
  · decide
  · simp only [isHexDigit, Bool.or_eq_true, Bool.and_eq_true, decide_eq_true_eq, Char.le_def,
      UInt32.le_iff_toNat_le] at hdigit
    have hvalue : c.toNat = c.val.toNat := rfl
    simp only [isWhiteSpace, hvalue, Bool.or_eq_false_iff, Bool.and_eq_false_iff,
      decide_eq_false_iff_not, beq_eq_false_iff_ne]
    have hzero : '0'.val.toNat = 48 := rfl
    have hnine : '9'.val.toNat = 57 := rfl
    have ha : 'a'.val.toNat = 97 := rfl
    have hf : 'f'.val.toNat = 102 := rfl
    omega

/-- What `persist_active_workspace` writes is read back. -/
theorem trim_marker (id : WorkspaceUuid) : trim (id.value ++ "\n") = id.value := by
  have hnone : ∀ c ∈ id.value.toList, ¬isWhiteSpace c = true := fun c h => by
    rw [isWhiteSpace_uuid h]
    exact Bool.false_ne_true
  have hlength : 0 < id.value.toList.length := by
    have hvalid := id.valid
    simp only [isWorkspaceUuid, Bool.and_eq_true, beq_iff_eq] at hvalid
    omega
  have hfront : (id.value.toList ++ ['\n']).dropWhile isWhiteSpace = id.value.toList ++ ['\n'] := by
    cases hchars : id.value.toList with
    | nil => simp [hchars] at hlength
    | cons c rest =>
      rw [cons_append, dropWhile_cons_of_neg]
      exact hnone c (by simp [hchars])
  have hback : (id.value.toList.reverse).dropWhile isWhiteSpace = id.value.toList.reverse := by
    cases hchars : id.value.toList.reverse with
    | nil => simp [reverse_eq_nil_iff.1 hchars] at hlength
    | cons c rest =>
      rw [dropWhile_cons_of_neg]
      exact hnone c (mem_reverse.1 (by simp [hchars]))
  unfold trim
  rw [String.toList_append]
  have hnl : "\n".toList = ['\n'] := rfl
  rw [hnl, hfront, reverse_append, reverse_singleton, singleton_append,
    dropWhile_cons_of_pos (by decide), hback, reverse_reverse, String.ofList_toList]

/-! ## All or nothing -/

/-- Projects, active workspace and marker are as they were. -/
def Unchanged (s t : WorkspaceManager) : Prop :=
  t.files = s.files ∧ t.active = s.active ∧ t.marker = s.marker

theorem Unchanged.rfl (s : WorkspaceManager) : Unchanged s s := ⟨.refl _, .refl _, .refl _⟩

def FailsCleanly (s : WorkspaceManager) (result : Outcome Unit × WorkspaceManager) : Prop :=
  ∀ error, result.1 = .error error → Unchanged s result.2

def AllOrNothing (s : WorkspaceManager) : WorkspaceEvent → Prop
  | .command command io => FailsCleanly s (runCommand s io command)
  | .restart _ => True

/-- The marker and the project that it names can be read. -/
def Opens (io : Io) : Prop :=
  [.openMarker, .markerMetadata, .readMarker, .openProject].all io.ok = true

/-- The active workspace is the one that was activated last, or none; and it is that one where it
still exists and opens. -/
def RestartsRight (s : WorkspaceManager) : WorkspaceEvent → Prop
  | .restart io =>
    (∀ service, (s.restart io).active = some service →
      s.activated = some service.path ∧ s.contains service.path = true) ∧
    ∀ id, s.activated = some id → s.lost = false → s.contains id = true → Opens io →
      (s.restart io).active = some ⟨id⟩
  | .command _ _ => True

/-! ## When it goes well -/

/-- What the marker says of a workspace. -/
def markerOf (id : WorkspaceUuid) : String := id.value ++ "\n"

/-- The steps of an activation that come up to the new marker. -/
def markingSteps : List FsStep :=
  [.summary, .header, .lock, .createStaged, .writeStaged, .syncStaged, .replaceMarker]

/-- The steps of a create behind its new project. -/
def activationSteps : List FsStep := markingSteps ++ [.syncRoot]

def creationSteps (attempt : Nat) : List FsStep :=
  [.createSchema attempt, .insertMeta attempt, .databaseSize attempt]

/-- No step fails behind the project file: or its creation fails, and the file is removed. -/
def CreatesWell (s : WorkspaceManager) (io : Io) (name : String) : (left attempt : Nat) → Prop
  | 0, _ => True
  | left + 1, attempt =>
    io.ok (.randomUuid attempt) = true →
    (createWorkspace ⟨(io.ids attempt).value, name, io.now⟩).toBool = true →
    if s.contains (io.ids attempt) then CreatesWell s io name left (attempt + 1)
    else io.ok (.createDir attempt) = true → io.ok (.reserveFile attempt) = true →
      if (creationSteps attempt).all io.ok then activationSteps.all io.ok = true
      else io.ok (.removeReserved attempt) = true

/-- The root is synced behind the marker, if that changes. -/
def OpensWell (s : WorkspaceManager) (io : Io) (workspaceId : String) : Prop :=
  ∀ id, parseUuid workspaceId = some id → s.files id = some ⟨some id.value⟩ →
    io.ok .openProject = true → markingSteps.all io.ok = true →
    io.ok .syncRoot = true ∨ s.marker = some (markerOf id)

/-- The new project can be opened. -/
def ImportsWell (s : WorkspaceManager) (io : Io) : Prop :=
  ∀ id, parseUuid io.source = some id → s.contains id = false →
    [.beginImport, .copySource, .validateStaged, .beforeCommit, .renameStaged].all io.ok = true →
    io.ok .openProject = true ∧ io.ok .summary = true

/-- An active project that cannot be removed opens again. -/
def DeletesWell (s : WorkspaceManager) (io : Io) (workspaceId : String) : Prop :=
  ∀ id, parseUuid workspaceId = some id → s.active = some ⟨id⟩ →
    io.ok .lock = true → io.ok .activeSummary = true → io.ok .removeProject = false →
    io.ok .reopenProject = true

def Guarded (s : WorkspaceManager) : WorkspaceEvent → Prop
  | .command (.createWorkspace name) io => io.ok .currentTime = true → CreatesWell s io name 4 0
  | .command (.openWorkspace workspaceId) io => OpensWell s io workspaceId
  | .command .importProject io => ImportsWell s io
  | .command (.deleteWorkspace workspaceId) io => DeletesWell s io workspaceId
  | .restart _ => True

/-! ## The invariant -/

structure Inv (s : WorkspaceManager) : Prop where
  headers : ∀ id file, s.files id = some file →
    file.workspaceId = none ∨ file.workspaceId = some id.value
  active : ∀ service, s.active = some service →
    s.files service.path = some ⟨some service.path.value⟩ ∧ s.activated = some service.path
  marker : ∀ text, s.marker = some text → ∃ id, s.activated = some id ∧ text = markerOf id
  kept : ∀ id, s.activated = some id → s.lost = false →
    s.marker = some (markerOf id) ∧ s.files id = some ⟨some id.value⟩

theorem inv_new : Inv {} where
  headers _ _ h := nomatch h
  active _ h := nomatch h
  marker _ h := nomatch h
  kept _ h := nomatch h

/-! ## Activations -/

/-- The workspace that is active, with its marker. -/
def WorkspaceManager.activatedAs (s : WorkspaceManager) (id : WorkspaceUuid) : WorkspaceManager :=
  { s with marker := some (markerOf id), active := some ⟨id⟩, activated := some id, lost := false }

theorem persistActive_ok
    (h : [.createStaged, .writeStaged, .syncStaged, .replaceMarker].all io.ok = true) :
    s.persistActive io id = (io.attempt .syncRoot, { s with marker := some (markerOf id) }) := by
  simp only [all_cons, all_nil, Bool.and_eq_true, Bool.and_true] at h
  obtain ⟨hcreate, hwrite, hsync, hreplace⟩ := h
  simp [persistActive, hcreate, hwrite, hsync, hreplace, markerOf]

theorem persistActive_error (s : WorkspaceManager) (id : WorkspaceUuid)
    (h : [.createStaged, .writeStaged, .syncStaged, .replaceMarker].all io.ok = false) :
    ∃ error, s.persistActive io id = (.error error, s) := by
  unfold persistActive
  split
  · exact ⟨_, rfl⟩
  · split
    · exact ⟨_, rfl⟩
    · split
      · exact ⟨_, rfl⟩
      · split
        · exact ⟨_, rfl⟩
        · rename_i hcreate hwrite hsync hreplace
          simp only [Bool.not_eq_true, Bool.not_eq_false'] at hcreate hwrite hsync hreplace
          simp [hcreate, hwrite, hsync, hreplace] at h

theorem activate_ok (hfile : s.files id = some ⟨some id.value⟩)
    (h : activationSteps.all io.ok = true) :
    s.activate io ⟨id⟩ = (.ok (), s.activatedAs id) := by
  simp only [activationSteps, markingSteps, cons_append, nil_append, all_cons,
    all_nil, Bool.and_eq_true, Bool.and_true] at h
  obtain ⟨hsummary, hheader, hlock, hcreate, hwrite, hsync, hreplace, hroot⟩ := h
  simp [activate, summary, commitActive,
    WorkspaceManager.contains, activatedAs, Io.attempt, hsummary, hheader, hlock,
    hfile, hroot, persistActive_ok, hcreate, hwrite, hsync, hreplace]

/-- An activation that fails has replaced the marker, or changed nothing. -/
theorem activate_error (hfile : s.files id = some ⟨some id.value⟩)
    (h : activationSteps.all io.ok = false) :
    ∃ error, s.activate io ⟨id⟩ = (.error error,
      if markingSteps.all io.ok then { s with marker := some (markerOf id) } else s) := by
  unfold activate summary
  by_cases hsummary : io.ok .summary = true
  · by_cases hheader : io.ok .header = true
    · by_cases hlock : io.ok .lock = true
      · have hmarking : markingSteps.all io.ok =
            [.createStaged, .writeStaged, .syncStaged, .replaceMarker].all io.ok := by
          simp [markingSteps, hsummary, hheader, hlock]
        cases hreplaced : [FsStep.createStaged, .writeStaged, .syncStaged,
          .replaceMarker].all io.ok with
        | false =>
          obtain ⟨error, herror⟩ := persistActive_error s id hreplaced
          refine ⟨error, ?_⟩
          simp [commitActive, WorkspaceManager.contains, Io.attempt, hsummary,
            hheader, hlock, hfile, herror, hmarking, hreplaced]
        | true =>
          have hroot : io.ok .syncRoot = false := by
            simpa [activationSteps, hmarking, hreplaced] using h
          refine ⟨.failed .syncRoot, ?_⟩
          simp [commitActive, WorkspaceManager.contains, Io.attempt, hsummary,
            hheader, hlock, hfile, persistActive_ok hreplaced, hroot, hmarking, hreplaced]
      · refine ⟨.busy, ?_⟩
        simp [commitActive, Io.attempt, hsummary, hheader, hlock, hfile,
          markingSteps]
    · refine ⟨.failed .header, ?_⟩
      simp [Io.attempt, hsummary, hheader, hfile, markingSteps]
  · refine ⟨.failed .summary, ?_⟩
    simp [hsummary, markingSteps]

/-! ## How a command ends -/

theorem inv_activatedAs (h : Inv s) (hfile : s.files id = some ⟨some id.value⟩) :
    Inv (s.activatedAs id) where
  headers := h.headers
  active service hactive := by
    cases hactive
    exact ⟨hfile, rfl⟩
  marker text hmarker := ⟨id, rfl, (Option.some.inj hmarker).symm⟩
  kept other hother _ := by
    cases hother
    exact ⟨rfl, hfile⟩

theorem inv_setFile (h : Inv s) (hfree : s.contains id = false) :
    Inv (s.setFile id (some ⟨some id.value⟩)) := by
  have hnone : s.files id = none := by simpa [WorkspaceManager.contains] using hfree
  have hold : ∀ other file, s.files other = some file →
      (s.setFile id (some ⟨some id.value⟩)).files other = some file := by
    intro other file hfile
    have hother : other ≠ id := by
      rintro rfl
      rw [hnone] at hfile
      cases hfile
    simpa [setFile, hother] using hfile
  exact
    { headers other file hfile := by
        by_cases hother : other = id
        · subst hother
          simp only [setFile, update_self, some.injEq] at hfile
          subst hfile
          exact .inr rfl
        · simp only [setFile, update_of_ne hother] at hfile
          exact h.headers other file hfile
      active service hactive :=
        ⟨hold _ _ (h.active service hactive).1, (h.active service hactive).2⟩
      marker := h.marker
      kept other hother hkept :=
        ⟨(h.kept other hother hkept).1, hold _ _ (h.kept other hother hkept).2⟩ }

theorem unchanged_setFile (file : ProjectFile) (hfree : s.contains id = false)
    (marker : Option String) : ¬Unchanged s { s.setFile id (some file) with marker } := by
  rintro ⟨hfiles, -⟩
  have hid := congrFun hfiles id
  simp only [setFile, update_self] at hid
  simp [WorkspaceManager.contains, ← hid] at hfree

/-- A command fails with nothing changed, or succeeds; where its guard does not hold, it fails
with something changed. -/
inductive Ends (guard : Prop) (s : WorkspaceManager) : Outcome Unit × WorkspaceManager → Prop
  | unchanged (error : CommandError) (hguard : guard) : Ends guard s (.error error, s)
  | changed (error : CommandError) (t : WorkspaceManager) (hchanged : ¬Unchanged s t)
      (hno : ¬guard) : Ends guard s (.error error, t)
  | done (t : WorkspaceManager) (hinv : Inv t) (hguard : guard) : Ends guard s (.ok (), t)

variable {guard : Prop} {result : Outcome Unit × WorkspaceManager}

theorem Ends.failsCleanly_iff (h : Ends guard s result) : FailsCleanly s result ↔ guard := by
  cases h with
  | unchanged error hguard => exact iff_of_true (fun _ _ => .rfl s) hguard
  | changed error t hchanged hno =>
    exact iff_of_false (fun hclean => hchanged (hclean error rfl)) hno
  | done t hinv hguard => exact iff_of_true (fun _ h => nomatch h) hguard

theorem Ends.inv (h : Ends guard s result) (hs : Inv s) (hguard : guard) : Inv result.2 := by
  cases h with
  | unchanged => exact hs
  | changed error t hchanged hno => exact absurd hguard hno
  | done t hinv => exact hinv

/-! ## Create -/

/-- The result of a create from one of its attempts on. -/
def createFrom (s : WorkspaceManager) (io : Io) (name : String) (left attempt : Nat) :
    Outcome Unit × WorkspaceManager :=
  match s.createAttempts io name left attempt with
  | (.error error, s) => (.error error, s)
  | (.ok none, s) => (.error .busy, s)
  | (.ok (some service), s) => s.activate io service

/-- A project that is created stays, whether it is activated or not. -/
theorem activation_ends (h : Inv s) (hfree : s.contains id = false) :
    Ends (activationSteps.all io.ok = true) s
      ((s.setFile id (some ⟨some id.value⟩)).activate io ⟨id⟩) := by
  have hfile : (s.setFile id (some ⟨some id.value⟩)).files id = some ⟨some id.value⟩ := by
    simp [setFile]
  cases hsteps : activationSteps.all io.ok with
  | true =>
    rw [activate_ok hfile hsteps]
    exact .done _ (inv_activatedAs (inv_setFile h hfree) hfile) rfl
  | false =>
    obtain ⟨error, herror⟩ := activate_error hfile hsteps
    rw [herror]
    refine .changed error _ (fun hsame => ?_) Bool.false_ne_true
    apply unchanged_setFile ⟨some id.value⟩ hfree s.marker
    split at hsame
    · exact ⟨hsame.1, hsame.2.1, rfl⟩
    · exact hsame

variable {name : String}

/-- The files of a creation: it succeeds, or what is left of it is removed or not. -/
theorem createProject_spec (attempt : Nat)
    (hvalid : (createWorkspace ⟨id.value, name, io.now⟩).toBool = true)
    (hfree : s.contains id = false)
    (hplace : [.createDir attempt, .reserveFile attempt].all io.ok = true) :
    if (creationSteps attempt).all io.ok then
      s.createProject io attempt id name = (.ok ⟨id⟩, s.setFile id (some ⟨some id.value⟩))
    else ∃ step left, s.createProject io attempt id name =
      (.error (.failed step),
        if io.ok (.removeReserved attempt) then s else s.setFile id (some left)) := by
  simp only [all_cons, all_nil, Bool.and_true, Bool.and_eq_true] at hplace
  unfold createProject
  cases hrequest : createWorkspace ⟨id.value, name, io.now⟩ with
  | error error =>
    rw [hrequest] at hvalid
    cases hvalid
  | ok service =>
    simp only [hfree, hplace, creationSteps, all_cons, all_nil, Bool.and_true,
      Bool.not_true, Bool.false_eq_true, if_false]
    by_cases hschema : io.ok (.createSchema attempt) = true
    · by_cases hmeta : io.ok (.insertMeta attempt) = true
      · by_cases hsize : io.ok (.databaseSize attempt) = true
        · simp [hschema, hmeta, hsize]
        · simp only [hschema, hmeta, hsize, Bool.and_false, Bool.false_eq_true, Bool.not_true,
            Bool.not_false, if_false, if_true]
          exact ⟨_, _, rfl⟩
      · simp only [hschema, hmeta, Bool.and_false, Bool.false_and, Bool.false_eq_true,
          Bool.not_true, Bool.not_false, if_false, if_true]
        exact ⟨_, _, rfl⟩
    · simp only [hschema, Bool.false_and, Bool.false_eq_true, Bool.not_false, if_false, if_true]
      exact ⟨_, _, rfl⟩

theorem createProject_refused (attempt : Nat) (name : String)
    (hrefused : (createWorkspace ⟨id.value, name, io.now⟩).toBool = false ∨
      s.contains id = false ∧ [.createDir attempt, .reserveFile attempt].all io.ok = false) :
    ∃ error, error ≠ .alreadyExists ∧ s.createProject io attempt id name = (.error error, s) := by
  unfold createProject
  cases hrequest : createWorkspace ⟨id.value, name, io.now⟩ with
  | error error =>
    cases error with
    | invalidInput field => exact ⟨.invalidInput field, nofun, rfl⟩
    | _ => exact ⟨.corrupt, nofun, rfl⟩
  | ok service =>
    rw [hrequest] at hrefused
    obtain hinvalid | ⟨hfree, hplace⟩ := hrefused
    · cases hinvalid
    · cases hdir : io.ok (.createDir attempt) with
      | false => exact ⟨.failed (.createDir attempt), nofun, by simp [hfree]⟩
      | true =>
        have hreserve : io.ok (.reserveFile attempt) = false := by simpa [hdir] using hplace
        exact ⟨.failed (.reserveFile attempt), nofun, by simp [hfree, hreserve]⟩

theorem createProject_exists (attempt : Nat)
    (hvalid : (createWorkspace ⟨id.value, name, io.now⟩).toBool = true)
    (hexists : s.contains id = true) :
    s.createProject io attempt id name = (.error .alreadyExists, s) := by
  unfold createProject
  cases hrequest : createWorkspace ⟨id.value, name, io.now⟩ with
  | ok => simp [hexists]
  | error =>
    rw [hrequest] at hvalid
    cases hvalid

/-- The attempts from one on that is refused change nothing. -/
theorem createFrom_refused {left attempt : Nat} (hrandom : io.ok (.randomUuid attempt) = true)
    (h : ∃ error, error ≠ .alreadyExists ∧
      s.createProject io attempt (io.ids attempt) name = (.error error, s)) (hguard : guard) :
    Ends guard s (createFrom s io name (left + 1) attempt) := by
  obtain ⟨error, hother, herror⟩ := h
  unfold createFrom createAttempts
  simp only [hrandom, herror, Bool.not_true, Bool.false_eq_true, if_false]
  cases error with
  | alreadyExists => exact absurd rfl hother
  | _ => exact .unchanged _ hguard

theorem createFrom_ends (h : Inv s) (name : String) (left attempt : Nat) :
    Ends (CreatesWell s io name left attempt) s (createFrom s io name left attempt) := by
  induction left generalizing attempt with
  | zero => exact .unchanged .busy trivial
  | succ left ih =>
    unfold CreatesWell
    cases hrandom : io.ok (.randomUuid attempt) with
    | false =>
      unfold createFrom createAttempts
      simp only [hrandom, Bool.not_false, if_true]
      exact .unchanged _ (by simp)
    | true =>
      cases hvalid : (createWorkspace ⟨(io.ids attempt).value, name, io.now⟩).toBool with
      | false =>
        exact createFrom_refused hrandom (createProject_refused attempt name (.inl hvalid))
          (by simp)
      | true =>
        cases hfree : s.contains (io.ids attempt) with
        | true =>
          have hnext : createFrom s io name (left + 1) attempt =
              createFrom s io name left (attempt + 1) := by
            unfold createFrom
            rw [createAttempts]
            simp [hrandom, createProject_exists attempt hvalid hfree]
          rw [hnext]
          simpa using ih (attempt + 1)
        | false =>
          cases hplace : [FsStep.createDir attempt, .reserveFile attempt].all io.ok with
          | false =>
            refine createFrom_refused hrandom
              (createProject_refused attempt name (.inr ⟨hfree, hplace⟩)) fun _ _ => ?_
            intro hdir hreserve
            simp [hdir, hreserve] at hplace
          | true =>
            have hspec := createProject_spec attempt hvalid hfree hplace
            simp only [all_cons, all_nil, Bool.and_true, Bool.and_eq_true] at hplace
            unfold createFrom createAttempts
            cases hsteps : (creationSteps attempt).all io.ok with
            | true =>
              rw [hsteps, if_pos rfl] at hspec
              simpa [hspec, hrandom, hplace] using activation_ends h hfree
            | false =>
              rw [hsteps, if_neg Bool.false_ne_true] at hspec
              obtain ⟨step, file, herror⟩ := hspec
              cases hremoved : io.ok (.removeReserved attempt) with
              | true =>
                simp only [herror, hremoved, hrandom, Bool.not_true, Bool.false_eq_true, if_false,
                  if_true]
                exact .unchanged _ (by simp)
              | false =>
                simp only [herror, hremoved, hrandom, Bool.not_true, Bool.false_eq_true, if_false]
                exact .changed _ _ (unchanged_setFile file hfree s.marker) (by simp [hplace])

theorem create_ends (h : Inv s) (name : String) :
    Ends (Guarded s (.command (.createWorkspace name) io)) s (s.createCommand io name) := by
  simp only [Guarded]
  cases hnow : io.ok .currentTime with
  | false =>
    simp only [createCommand, hnow, Bool.not_false, if_true]
    exact .unchanged _ (by simp)
  | true =>
    have hfrom : s.createCommand io name = createFrom s io name 4 0 := by
      simp only [createCommand, hnow, Bool.not_true, Bool.false_eq_true, if_false]
      rfl
    rw [hfrom]
    simpa using createFrom_ends h name 4 0

/-! ## Open, import and delete -/

variable {service : Service}

theorem openProject_ok (h : Inv s) {step : FsStep} (hopen : s.openProject io step id = .ok service)
    :
    service = ⟨id⟩ ∧ s.files id = some ⟨some id.value⟩ ∧ io.ok step = true := by
  unfold openProject at hopen
  cases hfile : s.files id with
  | none =>
    rw [hfile] at hopen
    cases hopen
  | some file =>
    obtain ⟨header⟩ := file
    rw [hfile] at hopen
    rcases h.headers id _ hfile with rfl | hheader
    · cases hopen
    · simp only at hheader
      subst hheader
      cases hstep : io.ok step with
      | false => simp [hstep] at hopen
      | true =>
        simp only [isNone_some, Bool.false_eq_true, if_false, hstep, if_true,
          Except.ok.injEq] at hopen
        exact ⟨hopen.symm, rfl, rfl⟩

theorem openProject_eq {step : FsStep} (hfile : s.files id = some ⟨some id.value⟩)
    (hstep : io.ok step = true) : s.openProject io step id = .ok ⟨id⟩ := by
  simp [openProject, hfile, hstep]

theorem open_ends (h : Inv s) (workspaceId : String) :
    Ends (OpensWell s io workspaceId) s (s.openCommand io workspaceId) := by
  unfold openCommand OpensWell
  cases hparse : parseUuid workspaceId with
  | none => exact .unchanged _ nofun
  | some id =>
    dsimp only
    cases hopen : s.openProject io .openProject id with
    | error error =>
      refine .unchanged _ ?_
      rintro _ ⟨⟩ hfile hstep -
      rw [openProject_eq hfile hstep] at hopen
      cases hopen
    | ok service =>
      obtain ⟨rfl, hfile, hstep⟩ := openProject_ok h hopen
      dsimp only
      cases hsteps : activationSteps.all io.ok with
      | true =>
        rw [activate_ok hfile hsteps]
        have hroot : io.ok .syncRoot = true := by
          simp [activationSteps] at hsteps
          exact hsteps.2
        exact .done _ (inv_activatedAs h hfile) fun _ _ _ _ _ => .inl hroot
      | false =>
        obtain ⟨error, herror⟩ := activate_error hfile hsteps
        rw [herror]
        cases hmarking : markingSteps.all io.ok with
        | false => exact .unchanged _ (by simp)
        | true =>
          have hroot : io.ok .syncRoot = false := by
            simpa [activationSteps, hmarking] using hsteps
          by_cases hmarker : s.marker = some (markerOf id)
          · have hsame : { s with marker := some (markerOf id) } = s := by
              rw [← hmarker]
            rw [if_pos rfl, hsame]
            refine .unchanged _ ?_
            rintro _ ⟨⟩ - - -
            exact .inr hmarker
          · refine .changed _ _ (fun hsame => hmarker hsame.2.2.symm) fun hguard => ?_
            rcases hguard id rfl hfile hstep rfl with hsynced | hsame
            · rw [hroot] at hsynced
              cases hsynced
            · exact hmarker hsame

theorem importPlaintext_eq (s : WorkspaceManager) (io : Io) :
    (∃ error, s.importPlaintext io = (.error error, s) ∧
      ∀ imported, parseUuid io.source = some imported → s.contains imported = false →
        [.copySource, .validateStaged, .beforeCommit, .renameStaged].all io.ok = false) ∨
    ∃ imported, parseUuid io.source = some imported ∧ s.contains imported = false ∧
      [.copySource, .validateStaged, .beforeCommit, .renameStaged].all io.ok = true ∧
      s.importPlaintext io = (.ok imported, s.setFile imported (some ⟨some imported.value⟩)) := by
  unfold importPlaintext
  cases hcopy : io.ok .copySource with
  | false => exact .inl ⟨.failed .copySource, by simp, by simp [hcopy]⟩
  | true =>
    cases hvalidate : io.ok .validateStaged with
    | false => exact .inl ⟨.failed .validateStaged, by simp, by simp [hvalidate]⟩
    | true =>
      cases hparse : parseUuid io.source with
      | none => exact .inl ⟨.invalidInput "workspaceId", by simp, by simp⟩
      | some imported =>
        cases hcommit : io.ok .beforeCommit with
        | false => exact .inl ⟨.failed .beforeCommit, by simp, by simp [hcommit]⟩
        | true =>
          cases hfree : s.contains imported with
          | true =>
            refine .inl ⟨.alreadyExists, by simp [hfree], ?_⟩
            rintro _ ⟨⟩ hno
            rw [hfree] at hno
            cases hno
          | false =>
            cases hrename : io.ok .renameStaged with
            | false => exact .inl ⟨.failed .renameStaged, by simp [hfree], by simp [hrename]⟩
            | true =>
              refine .inr ⟨imported, rfl, hfree, ?_, by simp [hfree]⟩
              simp [hcopy, hvalidate, hcommit, hrename]

theorem import_ends (h : Inv s) : Ends (ImportsWell s io) s (s.importCommand io) := by
  unfold importCommand ImportsWell
  cases hbegin : io.ok .beginImport with
  | false => exact .unchanged _ (by simp [hbegin])
  | true =>
    simp only [Bool.not_true, Bool.false_eq_true, if_false, all_cons, hbegin, Bool.true_and]
    obtain ⟨error, herror, hno⟩ | ⟨imported, hparse, hfree, hsteps, hdone⟩ :=
      importPlaintext_eq s io
    · rw [herror]
      refine .unchanged _ fun id hparse hfree hsteps => ?_
      have hfails := hno id hparse hfree
      simp only [all_cons] at hfails
      rw [hfails] at hsteps
      cases hsteps
    · rw [hdone]
      have hfile : (s.setFile imported (some ⟨some imported.value⟩)).files imported =
          some ⟨some imported.value⟩ := by
        simp [setFile]
      have hguard : ∀ {goal : Prop}, (∀ id, parseUuid io.source = some id →
          s.contains id = false → _ → goal) → goal := fun hall =>
        hall imported hparse hfree (by simpa only [all_cons] using hsteps)
      have hchanged : ¬Unchanged s (s.setFile imported (some ⟨some imported.value⟩)) :=
        unchanged_setFile _ hfree s.marker
      dsimp only
      cases hopen : io.ok .openProject with
      | false =>
        have hfails : (s.setFile imported (some ⟨some imported.value⟩)).openProject io
            .openProject imported = .error (.failed .openProject) := by
          simp [openProject, hfile, hopen]
        rw [hfails]
        exact .changed _ _ hchanged fun hall => by simpa using hguard hall
      | true =>
        rw [openProject_eq hfile hopen]
        cases hsummary : io.ok .summary with
        | false =>
          simp only [summary, hsummary, Bool.false_eq_true, if_false]
          exact .changed _ _ hchanged fun hall => by simpa using hguard hall
        | true =>
          simp only [summary, hsummary, hfile, bind_some, if_true]
          exact .done _ (inv_setFile h hfree) (by simp)

/-- The state behind the deletion of a project. -/
def WorkspaceManager.without (s : WorkspaceManager) (id : WorkspaceUuid)
    (active : Option Service) : WorkspaceManager :=
  { s.setFile id none with active, lost := s.lost || decide (s.activated = some id) }

theorem inv_without (h : Inv s) {active : Option Service}
    (hactive : ∀ service, active = some service → s.active = some service ∧ service.path ≠ id) :
    Inv (s.without id active) where
  headers other file hfile := by
    by_cases hother : other = id
    · simp [without, setFile, hother] at hfile
    · simp only [without, setFile, update_of_ne hother] at hfile
      exact h.headers other file hfile
  active service hservice := by
    obtain ⟨hbefore, hother⟩ := hactive service hservice
    obtain ⟨hfile, hactivated⟩ := h.active service hbefore
    refine ⟨?_, hactivated⟩
    simpa [without, setFile, hother] using hfile
  marker := h.marker
  kept other hother hlost := by
    simp only [without, Bool.or_eq_false_iff, decide_eq_false_iff_not] at hlost hother
    obtain ⟨hmarker, hfile⟩ := h.kept other hother hlost.1
    have hne : other ≠ id := fun hsame => hlost.2 (hsame ▸ hother)
    refine ⟨hmarker, ?_⟩
    simpa [without, setFile, hne] using hfile

theorem inv_removeMarker (h : Inv s) (io : Io) (hlost : s.activated = none ∨ s.lost = true) :
    Inv (s.removeMarker io) := by
  unfold removeMarker
  split
  · exact
      { headers := h.headers
        active := h.active
        marker := nofun
        kept other hother hkept := by
          rcases hlost with hnone | hlost
          · rw [hnone] at hother
            cases hother
          · rw [hlost] at hkept
            cases hkept }
  · exact h

theorem deleteProject_eq (s : WorkspaceManager) (io : Io) (id : WorkspaceUuid) :
    (∃ error, s.deleteProject io id = (.error error, s) ∧
      (s.contains id = false ∨ io.ok .removeProject = false)) ∨
    s.deleteProject io id = (.ok (), s.without id s.active) ∧ io.ok .removeProject = true := by
  unfold deleteProject
  cases hcontains : s.contains id with
  | false => exact .inl ⟨.invalidInput "workspaceId", by simp, .inl rfl⟩
  | true =>
    cases hremove : io.ok .removeProject with
    | false => exact .inl ⟨.failed .removeProject, by simp, .inr rfl⟩
    | true => exact .inr ⟨by simp [without, setFile], rfl⟩

theorem inv_withoutOther (h : Inv s) (hother : s.active ≠ some ⟨id⟩) :
    Inv (s.without id s.active) := by
  refine inv_without h fun service hactive => ⟨hactive, fun hsame => hother ?_⟩
  rw [hactive, ← hsame]

theorem summary_active (h : Inv s) (io : Io) (step : FsStep) (hactive : s.active = some service) :
    s.summary io step service =
      if io.ok step then .ok service.path.value else .error (.failed step) := by
  unfold summary
  rw [(h.active service hactive).1]
  rfl

theorem delete_ends (h : Inv s) (workspaceId : String) :
    Ends (DeletesWell s io workspaceId) s (s.deleteCommand io workspaceId) := by
  unfold deleteCommand DeletesWell
  cases hparse : parseUuid workspaceId with
  | none => exact .unchanged _ nofun
  | some id =>
    have hvalue := parseUuid_eq_some.1 hparse
    subst hvalue
    cases hlock : io.ok .lock with
    | false => exact .unchanged _ (by simp)
    | true =>
      simp only [Bool.not_true, Bool.false_eq_true, if_false]
      cases hactive : s.active with
      | none =>
        have hother : s.active ≠ some ⟨id⟩ := by simp [hactive]
        have hinv := inv_withoutOther h hother
        simp only [mapM_none, pure, Except.pure, reduceCtorEq, decide_false,
          Bool.false_eq_true, if_false, Bool.false_and]
        obtain ⟨error, herror, -⟩ | ⟨hdone, -⟩ := deleteProject_eq s io id
        · simp only [herror]
          exact .unchanged error (by simp)
        · simp only [hdone]
          exact .done _ hinv (by simp)
      | some service =>
        have hsummary := summary_active h io .activeSummary hactive
        cases hread : io.ok .activeSummary with
        | false =>
          rw [hread, if_neg Bool.false_ne_true] at hsummary
          simp only [mapM_some, hsummary]
          exact .unchanged _ (by simp)
        | true =>
          rw [hread, if_pos rfl] at hsummary
          simp only [mapM_some, hsummary]
          obtain ⟨hfile, hactivated⟩ := h.active service hactive
          by_cases hthis : service.path = id
          · subst hthis
            simp only [Functor.map, Except.map, decide_true, if_true, Bool.true_and]
            have hcontains : ({ s with active := none } : WorkspaceManager).contains service.path =
                true := by
              simp [WorkspaceManager.contains, hfile]
            obtain ⟨error, herror, hno⟩ | ⟨hdone, hremove⟩ :=
              deleteProject_eq { s with active := none } io service.path
            · have hremove : io.ok .removeProject = false := by
                rcases hno with hno | hno
                · rw [hcontains] at hno
                  cases hno
                · exact hno
              simp only [herror, hcontains, if_true]
              cases hreopen : io.ok .reopenProject with
              | true =>
                have hsame : { s with active := some service } = s := by
                  rw [← hactive]
                have hopen : ({ s with active := none } : WorkspaceManager).openProject io
                    .reopenProject service.path = .ok service := openProject_eq hfile hreopen
                simp only [hopen, Except.toOption, hsame]
                exact .unchanged error (by simp)
              | false =>
                have hopen : ({ s with active := none } : WorkspaceManager).openProject io
                    .reopenProject service.path = .error (.failed .reopenProject) := by
                  simp [openProject, hfile, hreopen]
                simp only [hopen, Except.toOption]
                refine .changed error _ (fun hsame => ?_) fun hguard => ?_
                · have hclosed := hsame.2.1
                  rw [hactive] at hclosed
                  cases hclosed
                · have hreopened := hguard service.path rfl rfl trivial trivial hremove
                  cases hreopened
            · simp only [hdone]
              have hclosed : Inv (s.without service.path none) :=
                inv_without h fun _ hnone => by cases hnone
              refine .done _ (inv_removeMarker hclosed io (.inr ?_)) (by simp [hremove])
              simp [without, hactivated]
          · have hvalue : service.path.value ≠ id.value := fun hsame =>
              hthis (WorkspaceUuid.eq_of_value hsame)
            have hother : s.active ≠ some ⟨id⟩ := by
              rw [hactive]
              rintro ⟨⟩
              exact hthis rfl
            have hinv := inv_withoutOther h hother
            have hguard : ∀ other, id = other → service = ⟨other⟩ → True → True →
                io.ok .removeProject = false → io.ok .reopenProject = true := by
              rintro other rfl rfl
              exact absurd rfl hthis
            simp only [Functor.map, Except.map, some.injEq, hvalue, decide_false,
              Bool.false_eq_true, if_false, Bool.false_and]
            obtain ⟨error, herror, -⟩ | ⟨hdone, -⟩ := deleteProject_eq s io id
            · simp only [herror]
              exact .unchanged error hguard
            · simp only [hdone]
              exact .done _ hinv hguard

/-! ## Restarts -/

theorem bytes_le (text : List Char) : bytes text ≤ 4 * text.length := by
  induction text with
  | nil => exact le_rfl
  | cons c text ih =>
    have hc := c.utf8Size_le_four
    rw [bytes_cons, length_cons]
    omega

theorem byteLength_markerOf (id : WorkspaceUuid) :
    byteLength (markerOf id) ≤ MAX_ACTIVE_WORKSPACE_FILE_BYTES := by
  have hlength : id.value.toList.length = 36 := by
    have hvalid := id.valid
    simp only [isWorkspaceUuid, Bool.and_eq_true, beq_iff_eq] at hvalid
    exact hvalid.1.1
  have hnl : "\n".toList.length = 1 := rfl
  have hbytes := bytes_le (markerOf id).toList
  rw [markerOf, String.toList_append, length_append, hlength, hnl] at hbytes
  unfold byteLength MAX_ACTIVE_WORKSPACE_FILE_BYTES
  rw [markerOf, String.toList_append]
  omega

/-- A restart reads its marker, if it comes up. -/
theorem readActive_eq (h : Inv s) (io : Io) :
    s.readActive io = (none, s) ∧ s.marker = none ∨
    (∃ id, s.activated = some id ∧ s.marker = some (markerOf id) ∧
      (s.readActive io = (some ⟨id⟩, s) ∧ s.files id = some ⟨some id.value⟩ ∨
        s.readActive io = (none, s.removeMarker io) ∧
          (s.files id = some ⟨some id.value⟩ → ¬Opens io))) := by
  unfold readActive
  cases hmarker : s.marker with
  | none => exact .inl ⟨rfl, rfl⟩
  | some text =>
    obtain ⟨id, hactivated, rfl⟩ := h.marker text hmarker
    refine .inr ⟨id, hactivated, rfl, ?_⟩
    dsimp only
    split
    · rename_i hfails
      refine .inr ⟨rfl, fun _ hopens => ?_⟩
      simp only [Opens, all_cons, all_nil, Bool.and_eq_true, Bool.and_true] at hopens
      simp only [hopens, Bool.not_true, Bool.false_or, Bool.or_false, decide_eq_true_eq] at hfails
      exact absurd hfails (not_lt.2 (byteLength_markerOf id))
    · have htrim : parseUuid (trim (markerOf id)) = some id := by
        rw [markerOf, trim_marker, parseUuid_value]
      simp only [htrim]
      cases hopen : s.openProject io .openProject id with
      | error error =>
        refine .inr ⟨rfl, fun hfile hopens => ?_⟩
        simp only [Opens, all_cons, all_nil, Bool.and_eq_true, Bool.and_true] at hopens
        rw [openProject_eq hfile hopens.2.2.2] at hopen
        cases hopen
      | ok service =>
        obtain ⟨rfl, hfile, -⟩ := openProject_ok h hopen
        exact .inl ⟨rfl, hfile⟩

theorem inv_closed (h : Inv s) : Inv { s with active := none, lost := true } where
  headers := h.headers
  active := nofun
  marker := h.marker
  kept := nofun

theorem restart_inv (h : Inv s) (io : Io) : Inv (s.restart io) := by
  unfold restart
  obtain ⟨hread, -⟩ | ⟨id, hactivated, hmarker, ⟨hread, hfile⟩ | ⟨hread, -⟩⟩ := readActive_eq h io
  · rw [hread]
    simpa using inv_closed h
  · rw [hread]
    exact
      { headers := h.headers
        active := by
          rintro _ ⟨⟩
          exact ⟨hfile, hactivated⟩
        marker := h.marker
        kept other hother hlost := by
          exact h.kept other hother (by simpa using hlost) }
  · have hclosed := inv_removeMarker (inv_closed h) io (.inr rfl)
    have hsame : ({ s with active := none, lost := true } : WorkspaceManager).removeMarker io =
        { s.removeMarker io with active := none, lost := true } := by
      unfold removeMarker
      split <;> rfl
    rw [hsame] at hclosed
    rw [hread]
    simpa using hclosed

theorem restart_right (h : Inv s) (io : Io) : RestartsRight s (.restart io) := by
  obtain ⟨hread, hnone⟩ | ⟨id, hactivated, hmarker, ⟨hread, hfile⟩ | ⟨hread, hno⟩⟩ :=
    readActive_eq h io
  · have hactive : (s.restart io).active = none := by simp [restart, hread]
    simp only [RestartsRight, hactive]
    refine ⟨nofun, fun id hid hlost _ _ => ?_⟩
    rw [(h.kept id hid hlost).1] at hnone
    cases hnone
  · have hactive : (s.restart io).active = some ⟨id⟩ := by simp [restart, hread]
    simp only [RestartsRight, hactive]
    refine ⟨?_, fun other hother _ _ _ => ?_⟩
    · rintro _ ⟨⟩
      exact ⟨hactivated, by simp [WorkspaceManager.contains, hfile]⟩
    · rw [hactivated] at hother
      cases hother
      rfl
  · have hactive : (s.restart io).active = none := by simp [restart, hread]
    simp only [RestartsRight, hactive]
    refine ⟨nofun, fun other hother hlost _ hopens => ?_⟩
    rw [hactivated] at hother
    cases hother
    exact absurd hopens (hno (h.kept id hactivated hlost).2)

/-! ## Runs -/

theorem command_ends (h : Inv s) (command : WorkspaceCommand) (io : Io) :
    Ends (Guarded s (.command command io)) s (runCommand s io command) := by
  cases command with
  | createWorkspace name => exact create_ends h name
  | openWorkspace workspaceId => exact open_ends h workspaceId
  | importProject => exact import_ends h
  | deleteWorkspace workspaceId => exact delete_ends h workspaceId

theorem allOrNothing_iff (h : Inv s) (e : WorkspaceEvent) : AllOrNothing s e ↔ Guarded s e := by
  cases e with
  | command command io => exact (command_ends h command io).failsCleanly_iff
  | restart io => exact .rfl

theorem step_inv {e : WorkspaceEvent} (hguard : Guarded s e) (h : Inv s) : Inv (step s e) := by
  cases e with
  | command command io => exact (command_ends h command io).inv h hguard
  | restart io => exact restart_inv h io

theorem restarts_right (h : Inv s) (e : WorkspaceEvent) : RestartsRight s e := by
  cases e with
  | command => trivial
  | restart io => exact restart_right h io

/-- Every command of a run is all or nothing and every restart brings up the workspace that was
activated last, just when no step fails behind the point of no return of its command. -/
theorem workspace_commands_all_or_nothing (events : List WorkspaceEvent) :
    Along step (fun s e => AllOrNothing s e ∧ RestartsRight s e) {} events ↔
      Along step Guarded {} events := by
  suffices ∀ s, Inv s → (Along step (fun s e => AllOrNothing s e ∧ RestartsRight s e) s events ↔
      Along step Guarded s events) from this {} inv_new
  induction events with
  | nil => exact fun _ _ => .rfl
  | cons e events ih =>
    intro s h
    constructor
    · rintro ⟨⟨hclean, -⟩, hrest⟩
      have hguard := (allOrNothing_iff h e).1 hclean
      exact ⟨hguard, (ih _ (step_inv hguard h)).1 hrest⟩
    · rintro ⟨hguard, hrest⟩
      exact ⟨⟨(allOrNothing_iff h e).2 hguard, restarts_right h e⟩,
        (ih _ (step_inv hguard h)).2 hrest⟩

/-! ## A marker that is replaced and not synced -/

def benchId : WorkspaceUuid := ⟨"0a000000-0000-4000-8000-000000000001", by decide +kernel⟩

def fieldId : WorkspaceUuid := ⟨"0b000000-0000-4000-8000-000000000002", by decide +kernel⟩

/-- Every step succeeds but `failing`. -/
def ioWith (id : WorkspaceUuid) (failing : Option FsStep) : Io where
  ok step := decide (failing ≠ some step)
  now := 0
  ids _ := id
  source := id.value

/-- Two workspaces, the second of them active. -/
def twoWorkspaces : List WorkspaceEvent :=
  [.command (.createWorkspace "bench") (ioWith benchId none),
    .command (.createWorkspace "field") (ioWith fieldId none)]

/-- The first one is opened: its marker is in place when the sync of the directory fails. -/
def unsyncedOpen : WorkspaceEvent :=
  .command (.openWorkspace benchId.value) (ioWith benchId (some .syncRoot))

theorem step_create (s : WorkspaceManager) (io : Io) (name : String)
    (hok : ∀ step, io.ok step = true)
    (hvalid : (createWorkspace ⟨(io.ids 0).value, name, io.now⟩).toBool = true)
    (hfree : s.contains (io.ids 0) = false) :
    step s (.command (.createWorkspace name) io) =
      (s.setFile (io.ids 0) (some ⟨some (io.ids 0).value⟩)).activatedAs (io.ids 0) := by
  have hspec := createProject_spec 0 hvalid hfree (by simp [hok])
  rw [if_pos (by simp [creationSteps, hok])] at hspec
  simp [step, runCommand, createCommand, createAttempts, hok, hspec, activate_ok, setFile,
    activationSteps, markingSteps]

/-- An open that is not synced is clean only where the marker was the one it writes. -/
theorem marker_of_unsynced (hclean : AllOrNothing s (.command (.openWorkspace id.value)
    (ioWith id (some .syncRoot)))) (hfile : s.files id = some ⟨some id.value⟩) :
    s.marker = some (markerOf id) := by
  obtain ⟨error, herror⟩ := @activate_error s (ioWith id (some .syncRoot)) id hfile rfl
  have hmarks : markingSteps.all (ioWith id (some .syncRoot)).ok = true := rfl
  rw [if_pos hmarks] at herror
  have hopen : s.openCommand (ioWith id (some .syncRoot)) id.value =
      (.error error, { s with marker := some (markerOf id) }) := by
    simpa [openCommand, openProject, hfile, ioWith] using herror
  have hmarker := (hclean error (congrArg Prod.fst hopen)).2.2
  exact hmarker.symm.trans (congrArg (·.2.marker) hopen)

theorem open_fails_with_marker_replaced :
    ¬∀ events, Along step (fun s e => AllOrNothing s e ∧ RestartsRight s e) {} events := by
  intro h
  have hmarkers : markerOf benchId ≠ markerOf fieldId := by decide +kernel
  have hne : benchId ≠ fieldId := fun hsame => hmarkers (congrArg markerOf hsame)
  have hclean := (h (twoWorkspaces ++ [unsyncedOpen])).2.2.1.1
  rw [step_create {} (ioWith benchId none) "bench" (fun _ => rfl) (by decide +kernel) rfl,
    step_create _ (ioWith fieldId none) "field" (fun _ => rfl) (by decide +kernel)
      (by simp [WorkspaceManager.contains, activatedAs, setFile, ioWith,
        hne.symm])] at hclean
  have hmarker := marker_of_unsynced hclean
    (by simp [activatedAs, setFile, ioWith, hne])
  exact hmarkers (Option.some.inj hmarker).symm

end bbcom.workspace_manager
