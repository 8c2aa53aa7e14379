import MqStudio.Lib.Transition
import MqStudio.Model.Settings

/-!
# Two writers of the settings

`useSettings.ts` saves the window's whole copy, a while after a choice and one save after another,
and reads the settings again when Go says they changed, unless it is saving.  The tray changes a
single preference on the Go side (`bindTray` of `main.go`).

* `storeSettings_redact`: a copy that is saved again is what was read.
* `State.step`: choices, the timer, the saves, the tray, the notifications and the answers, in any
  order.
* `State.due`: what Go holds once the window's saves are through.
* `agree_of_inTime`: in the runs whose steps are in time the two agree, and nothing is lost.
-/

namespace MqStudio.Settings

open Lib.Transition
open Model Lib.Text

/-! ### What travels -/

/-- The settings as the window gets them, with the global key pair taken out. -/
structure SettingsView where
  settings : AppSettings
  globalAccessKeyConfigured : Bool
  globalSecretKeyConfigured : Bool
deriving DecidableEq

/-- The window's copy. -/
abbrev FrontendSettings := SettingsView

def isConfigured (key : String) : Bool := trimSpace key ≠ ""

def redactSettings (settings : AppSettings) : SettingsView where
  settings := { settings with globalAccessKey := "", globalSecretKey := "" }
  globalAccessKeyConfigured := isConfigured settings.globalAccessKey
  globalSecretKeyConfigured := isConfigured settings.globalSecretKey

def parseUIScale (value : String) : String := if validUIScale value then value else "auto"

/-- A value that JavaScript's `||` keeps. -/
def orBlank (default value : String) : String := orDefault (fun v => v ≠ "") default value

def orZero (default value : Int64) : Int64 := orDefault (fun v => v ≠ 0) default value

def toFrontend (view : SettingsView) : FrontendSettings :=
  let s := view.settings
  let d := defaultSettings
  { view with settings := { s with
      theme := orDefault (fun v => v = "system" || v = "light" || v = "dark") d.theme s.theme
      language := orBlank d.language s.language
      uiScale := parseUIScale s.uiScale
      uiFont := orBlank d.uiFont s.uiFont
      monospaceFont := orBlank d.monospaceFont s.monospaceFont
      updatePolicy := orDefault validPolicy d.updatePolicy s.updatePolicy
      closeBehavior := orBlank d.closeBehavior s.closeBehavior
      connectTimeoutMs := orZero d.connectTimeoutMs s.connectTimeoutMs
      requestTimeoutMs := orZero d.requestTimeoutMs s.requestTimeoutMs
      timezone := orBlank d.timezone s.timezone
      timestampFormat := orBlank d.timestampFormat s.timestampFormat
      maxPayloadRenderBytes := orZero d.maxPayloadRenderBytes s.maxPayloadRenderBytes
      fetchLimit := orZero d.fetchLimit s.fetchLimit } }

def toBackend (settings : FrontendSettings) : AppSettings := settings.settings

/-- What `Update` stores in the preserve mode, where these are the settings so far. -/
def storeSettings (current input : AppSettings) : AppSettings :=
  normalize <|
    if input.globalAccessKey = "" ∧ input.globalSecretKey = "" then
      { input with
        globalAccessKey := current.globalAccessKey
        globalSecretKey := current.globalSecretKey }
    else input

/-! ### A change of one preference -/

inductive Change where
  | theme (value : String)
  | language (value : String)
  | uiScale (value : String)
  | uiFont (value : String)
  | monospaceFont (value : String)
  | autoConnectLast (value : Bool)
  | updatePolicy (value : String)
  | closeBehavior (value : String)
  | connectTimeoutMs (value : Int64)
  | requestTimeoutMs (value : Int64)
  | lagAlertThreshold (value : Int64)
  | diskAlertThreshold (value : Int64)
  | desktopNotifications (value : Bool)
  | timezone (value : String)
  | timestampFormat (value : String)
  | autoFormatJson (value : Bool)
  | maxPayloadRenderBytes (value : Int64)
  | fetchLimit (value : Int64)
deriving DecidableEq

namespace Change

def apply (s : AppSettings) : Change → AppSettings
  | theme value => { s with theme := value }
  | language value => { s with language := value }
  | uiScale value => { s with uiScale := value }
  | uiFont value => { s with uiFont := value }
  | monospaceFont value => { s with monospaceFont := value }
  | autoConnectLast value => { s with autoConnectLast := value }
  | updatePolicy value => { s with updatePolicy := value }
  | closeBehavior value => { s with closeBehavior := value }
  | connectTimeoutMs value => { s with connectTimeoutMs := value }
  | requestTimeoutMs value => { s with requestTimeoutMs := value }
  | lagAlertThreshold value => { s with lagAlertThreshold := value }
  | diskAlertThreshold value => { s with diskAlertThreshold := value }
  | desktopNotifications value => { s with desktopNotifications := value }
  | timezone value => { s with timezone := value }
  | timestampFormat value => { s with timestampFormat := value }
  | autoFormatJson value => { s with autoFormatJson := value }
  | maxPayloadRenderBytes value => { s with maxPayloadRenderBytes := value }
  | fetchLimit value => { s with fetchLimit := value }

/-- The preferences the tray's menu changes. -/
def onTray : Change → Bool
  | theme _ | language _ | closeBehavior _ => true
  | _ => false

/-- The value passes its check. -/
def Valid (c : Change) : Prop := normalize (c.apply defaultSettings) = c.apply defaultSettings

instance (c : Change) : Decidable c.Valid :=
  inferInstanceAs (Decidable (normalize (c.apply defaultSettings) = c.apply defaultSettings))

/-- `{ ...prev, [key]: value }`. -/
def setIn (f : FrontendSettings) (c : Change) : FrontendSettings :=
  { f with settings := c.apply f.settings }

end Change

/-! ### The system -/

/-- The save whose turn it is. -/
inductive Sent where
  | idle
  /-- On its way to Go. -/
  | request (settings : FrontendSettings)
  /-- Stored, its answer on the way back. -/
  | answered
deriving DecidableEq

/-- The two sides, and what is on its way between them.

* `timer` is the copy that waits for the timer, `queue` and `sent` the saves that are chained.
* `notifications` to `replies` are the events and the calls of `getSettings` on their way.
* `tray` are the choices of the tray whose settings are read and not yet written.
* `want` are the settings with each preference as it was last set. -/
structure State where
  go : AppSettings
  window : FrontendSettings
  timer : Option FrontendSettings
  queue : List FrontendSettings
  sent : Sent
  notifications : Nat
  requests : Nat
  replies : List SettingsView
  tray : List (Change × AppSettings)
  want : AppSettings
deriving DecidableEq

namespace State

variable (s : State)

/-- Whether a notification is passed over. -/
def saving : Bool := s.timer.isSome || !s.queue.isEmpty || s.sent ≠ .idle

inductive Label where
  | setSetting (c : Change)
  | fireTimer
  | send
  | update
  | answer
  | trayRead (c : Change)
  | trayWrite (i : Nat)
  | notified
  | getSettings
  | reply (i : Nat)
deriving DecidableEq

def step (s : State) : Label → Option State
  | .setSetting c =>
    if c.Valid then
      let next := c.setIn s.window
      some { s with window := next, timer := some next, want := c.apply s.want }
    else none
  | .fireTimer =>
    match s.timer with
    | none => none
    | some pending => some { s with timer := none, queue := s.queue ++ [pending] }
  | .send =>
    match s.sent, s.queue with
    | .idle, next :: queue => some { s with sent := .request next, queue := queue }
    | _, _ => none
  | .update =>
    match s.sent with
    | .request next =>
      some { s with
        go := storeSettings s.go (toBackend next)
        sent := .answered
        notifications := s.notifications + 1 }
    | _ => none
  | .answer =>
    match s.sent with
    | .answered => some { s with sent := .idle }
    | _ => none
  | .trayRead c =>
    if c.onTray ∧ c.Valid then some { s with tray := s.tray ++ [(c, s.go)] } else none
  | .trayWrite i =>
    match s.tray[i]? with
    | none => none
    | some (c, read) =>
      some { s with
        go := normalize (c.apply read)
        notifications := s.notifications + 1
        tray := s.tray.eraseIdx i
        want := c.apply s.want }
  | .notified =>
    if s.notifications = 0 then none
    else
      let s := { s with notifications := s.notifications - 1 }
      some (if s.saving then s else { s with requests := s.requests + 1 })
  | .getSettings =>
    if s.requests = 0 then none
    else some { s with
      requests := s.requests - 1
      replies := s.replies ++ [redactSettings s.go] }
  | .reply i =>
    match s.replies[i]? with
    | none => none
    | some view => some { s with window := toFrontend view, replies := s.replies.eraseIdx i }

/-- The first load has answered. -/
def loaded (settings : AppSettings) : State where
  go := settings
  window := toFrontend (redactSettings settings)
  timer := none
  queue := []
  sent := .idle
  notifications := 0
  requests := 0
  replies := []
  tray := []
  want := settings

end State

def system : System State State.Label where
  Init s := ∃ settings, normalize settings = settings ∧ s = .loaded settings
  Step s l t := s.step l = some t

namespace State

variable (s : State)

/-- The saves of the chain that Go has still to get. -/
def chained : List FrontendSettings :=
  (match s.sent with
    | .request next => [next]
    | _ => []) ++ s.queue

def saves : List FrontendSettings := s.chained ++ s.timer.toList

/-- What Go holds once the window's saves are through. -/
def due : AppSettings :=
  match s.saves.getLast? with
  | none => s.go
  | some last => storeSettings s.go (toBackend last)

/-- Something that tells the window what Go holds is on its way, or will be. -/
def Coming : Prop :=
  0 < s.notifications ∨ s.saves ≠ [] ∨ 0 < s.requests ∨ redactSettings s.go ∈ s.replies

/-- The step is in time.

* A choice is made from a copy that lacks nothing of what Go is to hold.
* The tray writes where the window has nothing to save, what it read but for the preference being
  what Go holds, or it sets what the window is saving.
* A notification that is passed over, and an answer out of date, is not the last of them, or the
  window lacks nothing. -/
def InTime : Label → Prop
  | .setSetting c => c.setIn s.window = redactSettings (c.apply s.due)
  | .trayWrite i => ∀ choice ∈ s.tray[i]?,
      s.saves = [] ∧ choice.1.apply choice.2 = choice.1.apply s.go ∨
        s.saves ≠ [] ∧ choice.1.apply s.due = s.due
  | .notified => s.saving → s.window = redactSettings s.due ∨
      { s with notifications := s.notifications - 1 }.Coming
  | .reply i => ∀ view ∈ s.replies[i]?, view = redactSettings s.due ∨
      { s with replies := s.replies.eraseIdx i }.Coming
  | _ => True

instance : Decidable s.Coming :=
  inferInstanceAs (Decidable (0 < s.notifications ∨ s.saves ≠ [] ∨ 0 < s.requests ∨
    redactSettings s.go ∈ s.replies))

instance : DecidablePred s.InTime
  | .setSetting c =>
    inferInstanceAs (Decidable (c.setIn s.window = redactSettings (c.apply s.due)))
  | .trayWrite i => inferInstanceAs (Decidable (∀ choice ∈ s.tray[i]?,
      s.saves = [] ∧ choice.1.apply choice.2 = choice.1.apply s.go ∨
        s.saves ≠ [] ∧ choice.1.apply s.due = s.due))
  | .notified => inferInstanceAs (Decidable (s.saving → s.window = redactSettings s.due ∨
      { s with notifications := s.notifications - 1 }.Coming))
  | .reply i => inferInstanceAs (Decidable (∀ view ∈ s.replies[i]?,
      view = redactSettings s.due ∨ { s with replies := s.replies.eraseIdx i }.Coming))
  | .fireTimer | .send | .update | .answer | .trayRead _ | .getSettings =>
    inferInstanceAs (Decidable True)

/-- Nothing is pending on either side. -/
structure Quiet : Prop where
  timer : s.timer = none
  queue : s.queue = []
  sent : s.sent = .idle
  notifications : s.notifications = 0
  requests : s.requests = 0
  replies : s.replies = []
  tray : s.tray = []

/-- The window shows what Go holds, and that is what was last set. -/
structure Agree : Prop where
  window : s.window = toFrontend (redactSettings s.go)
  go : s.go = s.want

end State

/-! ### Copies that travel -/

/-- A value that a check leaves alone is none that the check and the default exclude. -/
theorem ne_of_orDefault {α : Type} (ok : α → Bool) {d v x : α} (h : orDefault ok d v = v)
    (hok : ok x = false) (hd : d ≠ x) : v ≠ x := by
  rintro rfl
  rw [orDefault, if_neg (by simp [hok])] at h
  exact hd h

theorem orBlank_of_ne {d v : String} (h : v ≠ "") : orBlank d v = v := by
  rw [orBlank, orDefault, if_pos (decide_eq_true h)]

theorem orZero_of_ne {d v : Int64} (h : v ≠ 0) : orZero d v = v := by
  rw [orZero, orDefault, if_pos (decide_eq_true h)]

/-- **The window shows normal settings as they are.** -/
theorem toFrontend_redact {s : AppSettings} (h : normalize s = s) :
    toFrontend (redactSettings s) = redactSettings s := by
  have htheme : orDefault (fun v => v = "system" || v = "light" || v = "dark")
      defaultSettings.theme s.theme = s.theme := congrArg AppSettings.theme h
  have hscale : parseUIScale s.uiScale = s.uiScale := congrArg AppSettings.uiScale h
  have hpolicy : orDefault validPolicy defaultSettings.updatePolicy s.updatePolicy =
      s.updatePolicy := congrArg AppSettings.updatePolicy h
  have hlanguage : s.language ≠ "" := ne_of_orDefault
    (fun v => v = "zh" || v = "en") (congrArg AppSettings.language h) rfl (by decide)
  have hfont : s.uiFont ≠ "" := by
    have hf := congrArg AppSettings.uiFont h
    simp only [Model.normalize] at hf
    exact ne_of_orDefault _ hf (by simp) (by decide)
  have hmono : s.monospaceFont ≠ "" := by
    have hf := congrArg AppSettings.monospaceFont h
    simp only [Model.normalize] at hf
    exact ne_of_orDefault _ hf (by simp) (by decide)
  have hclose : s.closeBehavior ≠ "" := ne_of_orDefault
    (fun v => v = "minimizeToTray" || v = "quit") (congrArg AppSettings.closeBehavior h) rfl
    (by decide)
  have hzone : s.timezone ≠ "" := ne_of_orDefault
    (fun v => v = "local" || v = "utc") (congrArg AppSettings.timezone h) rfl (by decide)
  have hformat : s.timestampFormat ≠ "" := ne_of_orDefault
    (fun v => v = "datetime" || v = "ms") (congrArg AppSettings.timestampFormat h) rfl
    (by decide)
  have hconnect : s.connectTimeoutMs ≠ 0 := ne_of_orDefault
    (fun v : Int64 => 500 ≤ v && v ≤ 300000) (congrArg AppSettings.connectTimeoutMs h) (by decide)
    (by decide)
  have hrequest : s.requestTimeoutMs ≠ 0 := ne_of_orDefault
    (fun v : Int64 => 500 ≤ v && v ≤ 300000) (congrArg AppSettings.requestTimeoutMs h) (by decide)
    (by decide)
  have hbytes : s.maxPayloadRenderBytes ≠ 0 := ne_of_orDefault
    (fun v : Int64 => 64 * 1024 ≤ v && v ≤ 4 * 1024 * 1024)
    (congrArg AppSettings.maxPayloadRenderBytes h) (by decide) (by decide)
  have hfetch : s.fetchLimit ≠ 0 := ne_of_orDefault
    (fun v : Int64 => 0 < v && v ≤ 1000) (congrArg AppSettings.fetchLimit h) (by decide) (by decide)
  unfold toFrontend redactSettings
  dsimp only
  rw [htheme, hscale, hpolicy, orBlank_of_ne hlanguage, orBlank_of_ne hfont, orBlank_of_ne hmono,
    orBlank_of_ne hclose, orBlank_of_ne hzone, orBlank_of_ne hformat, orZero_of_ne hconnect,
    orZero_of_ne hrequest, orZero_of_ne hbytes, orZero_of_ne hfetch]

/-- The two have the same global key pair. -/
def SameKeys (s t : AppSettings) : Prop :=
  s.globalAccessKey = t.globalAccessKey ∧ s.globalSecretKey = t.globalSecretKey

theorem SameKeys.symm {s t : AppSettings} (h : SameKeys s t) : SameKeys t s :=
  ⟨h.1.symm, h.2.symm⟩

theorem SameKeys.trans {s t u : AppSettings} (h : SameKeys s t) (h' : SameKeys t u) :
    SameKeys s u := ⟨h.1.trans h'.1, h.2.trans h'.2⟩

/-- **A copy that is saved again is what was read.** -/
theorem storeSettings_redact {current s : AppSettings} (h : normalize s = s)
    (hkeys : SameKeys current s) : storeSettings current (toBackend (redactSettings s)) = s := by
  unfold storeSettings toBackend redactSettings
  dsimp only
  rw [if_pos ⟨rfl, rfl⟩, hkeys.1, hkeys.2]
  exact h

theorem storeSettings_congr {current current' : AppSettings} (hkeys : SameKeys current current')
    (input : AppSettings) : storeSettings current input = storeSettings current' input := by
  rw [storeSettings, hkeys.1, hkeys.2, storeSettings]

theorem sameKeys_apply (c : Change) (s : AppSettings) : SameKeys (c.apply s) s := by
  cases c <;> exact ⟨rfl, rfl⟩

/-- The change of the same preference to the value it has in `t`. -/
def Change.read (t : AppSettings) : Change → Change
  | theme _ => theme t.theme
  | language _ => language t.language
  | uiScale _ => uiScale t.uiScale
  | uiFont _ => uiFont t.uiFont
  | monospaceFont _ => monospaceFont t.monospaceFont
  | autoConnectLast _ => autoConnectLast t.autoConnectLast
  | updatePolicy _ => updatePolicy t.updatePolicy
  | closeBehavior _ => closeBehavior t.closeBehavior
  | connectTimeoutMs _ => connectTimeoutMs t.connectTimeoutMs
  | requestTimeoutMs _ => requestTimeoutMs t.requestTimeoutMs
  | lagAlertThreshold _ => lagAlertThreshold t.lagAlertThreshold
  | diskAlertThreshold _ => diskAlertThreshold t.diskAlertThreshold
  | desktopNotifications _ => desktopNotifications t.desktopNotifications
  | timezone _ => timezone t.timezone
  | timestampFormat _ => timestampFormat t.timestampFormat
  | autoFormatJson _ => autoFormatJson t.autoFormatJson
  | maxPayloadRenderBytes _ => maxPayloadRenderBytes t.maxPayloadRenderBytes
  | fetchLimit _ => fetchLimit t.fetchLimit

theorem read_apply (c : Change) (s : AppSettings) : c.read (c.apply s) = c := by
  cases c <;> rfl

/-- Preferences are normalised one by one. -/
theorem normalize_apply_eq (c : Change) (s t : AppSettings) :
    Model.normalize (c.apply s) =
      (c.read (Model.normalize (c.apply t))).apply (Model.normalize s) := by
  cases c <;> simp only [Change.apply, Change.read, Model.normalize]

/-- A valid change keeps settings normal. -/
theorem normalize_apply {c : Change} (hc : c.Valid) {s : AppSettings}
    (h : Model.normalize s = s) : Model.normalize (c.apply s) = c.apply s := by
  rw [normalize_apply_eq c s defaultSettings, hc, read_apply, h]

/-! ### Nothing is lost -/

namespace State

variable {s t : State}

/-- What holds in every state of a run whose steps are in time. -/
structure Inv (s : State) : Prop where
  go_normal : Model.normalize s.go = s.go
  keys : SameKeys s.go s.want
  saves : ∀ f ∈ s.saves, ∃ settings, Model.normalize settings = settings ∧
    SameKeys s.go settings ∧ f = redactSettings settings
  tray : ∀ choice ∈ s.tray, choice.1.Valid ∧ Model.normalize choice.2 = choice.2 ∧
    SameKeys s.go choice.2
  due_eq : s.due = s.want
  current : s.window = redactSettings s.due ∨ s.Coming

theorem due_of_saves (hsaves : t.saves = s.saves) (hgo : t.go = s.go) : t.due = s.due := by
  rw [due, due, hsaves, hgo]

theorem due_of_nil (h : s.saves = []) : s.due = s.go := by rw [due, h]; rfl

theorem due_of_last {front : List FrontendSettings} {last : FrontendSettings}
    (h : s.saves = front ++ [last]) : s.due = storeSettings s.go (toBackend last) := by
  rw [due, h, List.getLast?_concat]

/-- What Go is to hold has its key pair, and is normal. -/
theorem Inv.due_normal (h : s.Inv) : Model.normalize s.due = s.due ∧ SameKeys s.go s.due := by
  rcases List.eq_nil_or_concat s.saves with hnil | ⟨front, last, hlast⟩
  · rw [due_of_nil hnil]
    exact ⟨h.go_normal, rfl, rfl⟩
  · rw [List.concat_eq_append] at hlast
    obtain ⟨settings, hnormal, hkeys, rfl⟩ := h.saves last (by rw [hlast]; simp)
    rw [due_of_last hlast, storeSettings_redact hnormal hkeys]
    exact ⟨hnormal, hkeys⟩

/-- The saves, where a step leaves both sides' settings alone. -/
theorem Inv.of_saves (h : s.Inv) (hsaves : t.saves = s.saves) (hgo : t.go = s.go)
    (hwant : t.want = s.want) (htray : t.tray = s.tray)
    (hcurrent : t.window = redactSettings s.due ∨ t.Coming) : t.Inv where
  go_normal := hgo ▸ h.go_normal
  keys := by rw [hgo, hwant]; exact h.keys
  saves := by rw [hsaves, hgo]; exact h.saves
  tray := by rw [htray, hgo]; exact h.tray
  due_eq := by rw [due_of_saves hsaves hgo, hwant]; exact h.due_eq
  current := by rw [due_of_saves hsaves hgo]; exact hcurrent

theorem inv_setSetting (h : s.Inv) {c : Change} (hin : s.InTime (.setSetting c))
    (hstep : s.step (.setSetting c) = some t) : t.Inv := by
  rw [step] at hstep
  split at hstep
  case isFalse => cases hstep
  case isTrue hvalid =>
  have ht := Option.some.inj hstep
  have hgo : t.go = s.go := by rw [← ht]
  have hsaves : t.saves = s.chained ++ [c.setIn s.window] := by
    rw [← ht]
    rfl
  obtain ⟨hnormal, hkeys⟩ := h.due_normal
  have hnext : c.setIn s.window = redactSettings (c.apply s.due) := hin
  have hkeys' : SameKeys s.go (c.apply s.due) := hkeys.trans (sameKeys_apply c s.due).symm
  have hnormal' := normalize_apply hvalid hnormal
  refine ⟨hgo ▸ h.go_normal, ?_, ?_, ?_, ?_, Or.inr (Or.inr (Or.inl ?_))⟩
  · rw [← ht]
    exact h.keys.trans (sameKeys_apply c s.want).symm
  · intro f hf
    rw [hsaves] at hf
    rw [hgo]
    rcases List.mem_append.mp hf with hf | hf
    · exact h.saves f (List.mem_append_left _ hf)
    · rw [List.mem_singleton] at hf
      exact ⟨_, hnormal', hkeys', hf.trans hnext⟩
  · rw [← ht]
    exact h.tray
  · rw [due_of_last hsaves, hgo, hnext, storeSettings_redact hnormal' hkeys', h.due_eq, ← ht]
  · rw [hsaves]
    exact List.concat_ne_nil _ _

theorem inv_update (h : s.Inv) (hstep : s.step .update = some t) : t.Inv := by
  rw [step] at hstep
  split at hstep
  case h_2 => cases hstep
  case h_1 next hsent =>
  have ht := Option.some.inj hstep
  have hsaves : s.saves = next :: t.saves := by
    rw [← ht, State.saves, State.saves, State.chained, State.chained, hsent]
    rfl
  obtain ⟨settings, hnormal, hkeys, rfl⟩ := h.saves next (by rw [hsaves]; simp)
  have hgo : t.go = settings := by
    rw [← ht]
    exact storeSettings_redact hnormal hkeys
  have hwant : t.want = s.want := by rw [← ht]
  have hnotified : 0 < t.notifications := by
    rw [← ht]
    exact Nat.succ_pos _
  refine ⟨hgo ▸ hnormal, ?_, ?_, ?_, ?_, Or.inr (Or.inl hnotified)⟩
  · rw [hgo, hwant]
    exact hkeys.symm.trans h.keys
  · intro f hf
    obtain ⟨other, hn, hk, rfl⟩ := h.saves f (by rw [hsaves]; exact List.mem_cons_of_mem _ hf)
    exact ⟨other, hn, by rw [hgo]; exact hkeys.symm.trans hk, rfl⟩
  · intro choice hchoice
    obtain ⟨hv, hn, hk⟩ := h.tray choice (by rw [← ht] at hchoice; exact hchoice)
    exact ⟨hv, hn, by rw [hgo]; exact hkeys.symm.trans hk⟩
  · rw [hwant, ← h.due_eq]
    rcases List.eq_nil_or_concat t.saves with hnil | ⟨front, last, hlast⟩
    · rw [due_of_nil hnil, hgo]
      rw [hnil] at hsaves
      have hdue := due_of_last (hsaves.trans (List.nil_append _).symm)
      rw [hdue, storeSettings_redact hnormal hkeys]
    · rw [List.concat_eq_append] at hlast
      rw [hlast] at hsaves
      have hdue := due_of_last (hsaves.trans (List.cons_append ..).symm)
      rw [due_of_last hlast, hdue, hgo]
      exact (storeSettings_congr hkeys _).symm

theorem inv_trayWrite (h : s.Inv) {i : Nat} (hin : s.InTime (.trayWrite i))
    (hstep : s.step (.trayWrite i) = some t) : t.Inv := by
  rw [step] at hstep
  split at hstep
  case h_1 => cases hstep
  case h_2 c read hchoice =>
  have ht := Option.some.inj hstep
  obtain ⟨hvalid, hnormal, hkeys⟩ := h.tray _ (List.mem_of_getElem? hchoice)
  have hgo : t.go = c.apply read := by
    rw [← ht]
    exact normalize_apply hvalid hnormal
  have hsaves : t.saves = s.saves := by
    rw [← ht]
    rfl
  have hwant : t.want = c.apply s.want := by rw [← ht]
  have hkeys' : SameKeys t.go s.go := by
    rw [hgo]
    exact (sameKeys_apply c read).trans hkeys.symm
  have hnotified : 0 < t.notifications := by
    rw [← ht]
    exact Nat.succ_pos _
  refine ⟨?_, ?_, ?_, ?_, ?_, Or.inr (Or.inl hnotified)⟩
  · rw [hgo]
    exact normalize_apply hvalid hnormal
  · rw [hwant]
    exact hkeys'.trans (h.keys.trans (sameKeys_apply c s.want).symm)
  · intro f hf
    obtain ⟨other, hn, hk, rfl⟩ := h.saves f (by rwa [hsaves] at hf)
    exact ⟨other, hn, hkeys'.trans hk, rfl⟩
  · intro choice hmem
    rw [← ht] at hmem
    obtain ⟨hv, hn, hk⟩ := h.tray choice (List.mem_of_mem_eraseIdx hmem)
    exact ⟨hv, hn, hkeys'.trans hk⟩
  · rcases hin (c, read) hchoice with ⟨hnil, hsame⟩ | ⟨hne, hsame⟩
    · rw [due_of_nil (hsaves.trans hnil), hgo, hwant, hsame, ← h.due_eq, due_of_nil hnil]
    · obtain ⟨front, last, hlast⟩ := (List.eq_nil_or_concat s.saves).resolve_left hne
      rw [List.concat_eq_append] at hlast
      rw [due_of_last (hsaves.trans hlast), storeSettings_congr hkeys', ← due_of_last hlast, hwant,
        ← h.due_eq, hsame]

theorem inv_notified (h : s.Inv) (hin : s.InTime .notified) (hstep : s.step .notified = some t) :
    t.Inv := by
  rw [step] at hstep
  split at hstep
  case isTrue => cases hstep
  case isFalse hpos =>
  have ht := Option.some.inj hstep
  by_cases hsaving : s.saving
  · have hsaving' : ({ s with notifications := s.notifications - 1 } : State).saving = true := hsaving
    rw [if_pos hsaving'] at ht
    subst ht
    exact h.of_saves rfl rfl rfl rfl (hin hsaving)
  · have hsaving' : ¬ ({ s with notifications := s.notifications - 1 } : State).saving = true :=
      hsaving
    rw [if_neg hsaving'] at ht
    subst ht
    exact h.of_saves rfl rfl rfl rfl (Or.inr (Or.inr (Or.inr (Or.inl (Nat.succ_pos _)))))

theorem inv_getSettings (h : s.Inv) (hstep : s.step .getSettings = some t) : t.Inv := by
  rw [step] at hstep
  split at hstep
  case isTrue => cases hstep
  case isFalse hpos =>
  obtain rfl := Option.some.inj hstep
  exact h.of_saves rfl rfl rfl rfl (Or.inr (Or.inr (Or.inr (Or.inr (by simp)))))

theorem inv_reply (h : s.Inv) {i : Nat} (hin : s.InTime (.reply i))
    (hstep : s.step (.reply i) = some t) : t.Inv := by
  rw [step] at hstep
  split at hstep
  case h_1 => cases hstep
  case h_2 view hview =>
  obtain rfl := Option.some.inj hstep
  refine h.of_saves rfl rfl rfl rfl ?_
  rcases hin view hview with rfl | hcoming
  · exact Or.inl (toFrontend_redact h.due_normal.1)
  · exact Or.inr hcoming

theorem Coming.of_saves (hc : s.Coming) (hsaves : t.saves = s.saves) (hgo : t.go = s.go)
    (hn : t.notifications = s.notifications) (hr : t.requests = s.requests)
    (hp : t.replies = s.replies) : t.Coming := by
  rw [Coming, hsaves, hgo, hn, hr, hp]
  exact hc

/-- A save that moves on, and the tray's reading, leave everything else as it is. -/
theorem Inv.moved (h : s.Inv) (hsaves : t.saves = s.saves) (hgo : t.go = s.go)
    (hwant : t.want = s.want) (htray : t.tray = s.tray) (hwindow : t.window = s.window)
    (hn : t.notifications = s.notifications) (hr : t.requests = s.requests)
    (hp : t.replies = s.replies) : t.Inv := by
  refine h.of_saves hsaves hgo hwant htray ?_
  rw [hwindow]
  exact h.current.imp_right fun hc => hc.of_saves hsaves hgo hn hr hp

theorem inv_fireTimer (h : s.Inv) (hstep : s.step .fireTimer = some t) : t.Inv := by
  rw [step] at hstep
  split at hstep
  case h_1 => cases hstep
  case h_2 pending htimer =>
  have ht := Option.some.inj hstep
  have hsaves : t.saves = s.saves := by
    rw [← ht, State.saves, State.saves, State.chained, State.chained, htimer]
    simp
  subst ht
  exact h.moved hsaves rfl rfl rfl rfl rfl rfl rfl

theorem inv_send (h : s.Inv) (hstep : s.step .send = some t) : t.Inv := by
  rw [step] at hstep
  split at hstep
  case h_2 => cases hstep
  case h_1 next queue hsent hqueue =>
  have ht := Option.some.inj hstep
  have hsaves : t.saves = s.saves := by
    rw [← ht, State.saves, State.saves, State.chained, State.chained, hsent, hqueue]
    rfl
  subst ht
  exact h.moved hsaves rfl rfl rfl rfl rfl rfl rfl

theorem inv_answer (h : s.Inv) (hstep : s.step .answer = some t) : t.Inv := by
  rw [step] at hstep
  split at hstep
  case h_2 => cases hstep
  case h_1 hsent =>
  have ht := Option.some.inj hstep
  have hsaves : t.saves = s.saves := by
    rw [← ht, State.saves, State.saves, State.chained, State.chained, hsent]
  subst ht
  exact h.moved hsaves rfl rfl rfl rfl rfl rfl rfl

theorem inv_trayRead (h : s.Inv) {c : Change} (hstep : s.step (.trayRead c) = some t) : t.Inv := by
  rw [step] at hstep
  split at hstep
  case isFalse => cases hstep
  case isTrue hvalid =>
  obtain rfl := Option.some.inj hstep
  refine ⟨h.go_normal, h.keys, h.saves, ?_, h.due_eq, h.current⟩
  intro choice hchoice
  rcases List.mem_append.mp hchoice with hchoice | hchoice
  · exact h.tray choice hchoice
  · rw [List.mem_singleton] at hchoice
    subst hchoice
    exact ⟨hvalid.2, h.go_normal, rfl, rfl⟩

/-- Every step that is in time keeps the invariant. -/
theorem inv_step (h : s.Inv) {l : Label} (hin : s.InTime l) (hstep : s.step l = some t) :
    t.Inv := by
  cases l with
  | setSetting c => exact inv_setSetting h hin hstep
  | fireTimer => exact inv_fireTimer h hstep
  | send => exact inv_send h hstep
  | update => exact inv_update h hstep
  | answer => exact inv_answer h hstep
  | trayRead c => exact inv_trayRead h hstep
  | trayWrite i => exact inv_trayWrite h hin hstep
  | notified => exact inv_notified h hin hstep
  | getSettings => exact inv_getSettings h hstep
  | reply i => exact inv_reply h hin hstep

theorem inv_loaded {settings : AppSettings} (h : Model.normalize settings = settings) :
    (loaded settings).Inv := by
  have hnil : (loaded settings).saves = [] := rfl
  have hdue : (loaded settings).due = settings := due_of_nil hnil
  refine ⟨h, ⟨rfl, rfl⟩, ?_, ?_, hdue, .inl ?_⟩
  · rw [hnil]
    exact fun f hf => absurd hf List.not_mem_nil
  · exact fun choice hchoice => absurd hchoice List.not_mem_nil
  · rw [hdue]
    exact toFrontend_redact h

theorem inv_run (h : Reachable (system.guard InTime) s) : s.Inv := by
  refine Reachable.inv (P := Inv) ?_ ?_ h
  · rintro s ⟨settings, hnormal, rfl⟩
    exact inv_loaded hnormal
  · intro s l t hinv hstep
    exact inv_step hinv hstep.2 hstep.1

end State

/-- **With nothing pending the two agree, and nothing is lost**, in every run whose steps are in
time. -/
theorem agree_of_inTime {s : State} (h : Reachable (system.guard State.InTime) s) (hq : s.Quiet) :
    s.Agree := by
  have hinv := State.inv_run h
  have hsaves : s.saves = [] := by
    rw [State.saves, State.chained, hq.sent, hq.queue, hq.timer]
    rfl
  have hdue : s.due = s.go := State.due_of_nil hsaves
  have hnone : ¬ s.Coming := by
    rintro (hn | hs | hr | hm)
    · exact absurd hq.notifications hn.ne'
    · exact hs hsaves
    · exact absurd hq.requests hr.ne'
    · rw [hq.replies] at hm
      cases hm
  refine ⟨?_, hdue.symm.trans hinv.due_eq⟩
  rw [toFrontend_redact hinv.go_normal, ← hdue]
  exact hinv.current.resolve_right hnone

/-- A choice in the window is saved and read again, and then one of the tray is read. -/
def inTurn : List State.Label :=
  [.setSetting (.language "en"), .fireTimer, .send, .update, .answer, .notified, .getSettings,
    .reply 0, .trayRead (.theme "dark"), .trayWrite 0, .notified, .getSettings, .reply 0]

/-- The state after the two choices, with both of them. -/
def bothChosen : AppSettings := { defaultSettings with language := "en", theme := "dark" }

theorem inTurn_agree : (State.loaded bothChosen).Agree := by
  have hrun : runSteps (fun (s : State) l => if s.InTime l then s.step l else none)
      (State.loaded defaultSettings) inTurn = some (State.loaded bothChosen) := by
    decide
  have hpath := Path.of_runSteps (S := system.guard State.InTime) (fun {s l t} h => by
    split at h
    · exact ⟨h, ‹_›⟩
    · cases h) hrun
  exact agree_of_inTime (hpath.reachable (.init ⟨defaultSettings, by decide, rfl⟩))
    ⟨rfl, rfl, rfl, rfl, rfl, rfl, rfl⟩

/-- A choice in the window, and one in the tray before the first is saved. -/
def atOnce : List State.Label :=
  [.setSetting (.language "en"), .trayRead (.theme "dark"), .trayWrite 0, .notified, .fireTimer,
    .send, .update, .answer, .notified, .getSettings, .reply 0]

/-- The window's save takes the tray's choice back. -/
theorem save_takes_back : ∃ s, Reachable system s ∧ s.Quiet ∧ ¬ s.Agree := by
  have hrun : runSteps State.step (State.loaded defaultSettings) atOnce =
      some { State.loaded { defaultSettings with language := "en" } with want := bothChosen } := by
    decide
  refine ⟨_, (Path.of_runSteps (S := system) id hrun).reachable
    (.init ⟨defaultSettings, by decide, rfl⟩), ⟨rfl, rfl, rfl, rfl, rfl, rfl, rfl⟩, ?_⟩
  intro h
  exact absurd (congrArg AppSettings.theme h.go) (by decide)

end MqStudio.Settings
