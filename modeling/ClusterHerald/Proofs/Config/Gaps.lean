import ClusterHerald.Config.Environment

/-!
# The gaps of a configuration

A setting is a gap, or it is given.  `Fills` says what becomes of it when something is offered for
it: a given setting is kept, and a gap has what is offered, if anything is.

The environment treats twelve texts and the listen address so (`Config.FilledBy`), and it leaves
alone what has no variable.  Switches are another matter.  A kind whose variable says `true` is on
afterwards, be its switch a gap or not (`Environment.get?_switchOn_of_turnsOn`), so a switch that is
off does not always stay off.  A switch is filled like the other settings exactly if it is not off
while the variable of its kind says `true` (`Config.gaps_filled`).
-/

namespace ClusterHerald

/-! ### Gaps -/

/-- A setting that is given is kept.  One that is not given has what is offered, if anything is. -/
structure Fills {α : Type} (old : Option α) (Offered : α → Prop) (new : Option α) : Prop where
  kept : ∀ a, old = some a → new = some a
  filled : old = none → ∀ a, new = some a ↔ Offered a

theorem Fills.eq {α : Type} {old new new' : Option α} {Offered : α → Prop}
    (h : Fills old Offered new) (h' : Fills old Offered new') : new = new' := by
  cases old with
  | none => exact Option.ext fun a => (h.filled rfl a).trans (h'.filled rfl a).symm
  | some a => rw [h.kept a rfl, h'.kept a rfl]

/-- A text that is empty is a gap. -/
def given (text : String) : Option String := if text = "" then none else some text

theorem getD_given (text : String) : (given text).getD "" = text := by
  by_cases h : text = "" <;> simp [given, h]

theorem given_inj {s t : String} : given s = given t ↔ s = t :=
  ⟨fun h => by rw [← getD_given s, h, getD_given], congrArg given⟩

namespace Environment

variable {env : Environment} {name id : String}

/-- A variable has this value, and it is not empty. -/
def Offers (env : Environment) (name value : String) : Prop := env name = some value ∧ value ≠ ""

/-- The value of a variable is `true`, in capital or small letters. -/
def SaysTrue (env : Environment) (name : String) : Prop :=
  ∃ value, env name = some value ∧ value.toList.map Char.toLower = "true".toList

/-- The variable of a built-in kind with this id says `true`. -/
def TurnsOn (env : Environment) (id : String) : Prop :=
  ∃ k ∈ Registry.kinds, k.id = id ∧ env.SaysTrue k.envName

theorem value?_eq_some_iff {value : String} :
    env.value? name = some value ↔ env.Offers name value := by
  simp [value?, Offers, Option.filter_eq_some_iff]

theorem turnsOn_eq_true_iff : env.turnsOn name = true ↔ env.SaysTrue name := by
  simp only [turnsOn, Option.any_eq_true, value?_eq_some_iff, sameIgnoringCase, SaysTrue, Offers,
    decide_eq_true_eq]
  constructor
  · rintro ⟨value, ⟨hvalue, -⟩, htrue⟩
    exact ⟨value, hvalue, htrue⟩
  · rintro ⟨value, hvalue, htrue⟩
    refine ⟨value, ⟨hvalue, ?_⟩, htrue⟩
    rintro rfl
    cases htrue

/-! ### Texts and the listen address -/

theorem fills_value? (old : Option String) :
    Fills old (env.Offers name) (old.or (env.value? name)) where
  kept := by rintro a rfl; rfl
  filled := by rintro rfl a; exact value?_eq_some_iff

/-- Filling an empty text is filling a gap. -/
theorem given_fill (text : String) :
    given (env.fill name text) = (given text).or (env.value? name) := by
  by_cases htext : text = ""
  · rw [fill, if_pos htext, given, given, if_pos htext, Option.none_or]
    cases hvalue : env.value? name with
    | none => rfl
    | some value => exact if_neg (value?_eq_some_iff.1 hvalue).2
  · rw [fill, if_neg htext, given, if_neg htext, Option.some_or]

theorem fill_fill (text : String) : env.fill name (env.fill name text) = env.fill name text := by
  rw [← given_inj, given_fill, given_fill, Option.or_assoc, Option.or_self]

/-! ### Switches -/

/-- One built-in kind is switched on if its variable says so. -/
def switch (env : Environment) (t : Table Bool) (k : BuiltinKind) : Table Bool :=
  if t.get? k.id ≠ some true ∧ env.turnsOn k.envName then t.insert k.id true else t

theorem switchOn_eq_foldl (t : Table Bool) : env.switchOn t = Registry.kinds.foldl env.switch t :=
  rfl

theorem get?_switch_of_turnsOn {k : BuiltinKind} (h : env.turnsOn k.envName) (t : Table Bool) :
    (env.switch t k).get? id = if k.id = id then some true else t.get? id := by
  by_cases hon : t.get? k.id = some true
  · rw [switch, if_neg fun hstep => hstep.1 hon]
    split
    · next heq => rw [← heq, hon]
    · rfl
  · rw [switch, if_pos ⟨hon, h⟩, Table.get?_insert]

theorem switch_of_not_turnsOn {k : BuiltinKind} (h : ¬ env.turnsOn k.envName) (t : Table Bool) :
    env.switch t k = t :=
  if_neg fun hstep => h hstep.2

/-- A list of kinds is gone through: those that are turned on are on, whatever they were before. -/
theorem get?_foldl_switch (ks : List BuiltinKind) (t : Table Bool) :
    (ks.foldl env.switch t).get? id =
      if ∃ k ∈ ks, k.id = id ∧ env.turnsOn k.envName then some true else t.get? id := by
  induction ks generalizing t with
  | nil => simp
  | cons k ks ih =>
    rw [List.foldl_cons, ih]
    by_cases hk : env.turnsOn k.envName
    · rw [get?_switch_of_turnsOn hk]
      by_cases hid : k.id = id <;> simp [hid, hk]
    · rw [switch_of_not_turnsOn hk]
      simp [hk]

theorem turnsOn_iff :
    env.TurnsOn id ↔ ∃ k ∈ Registry.kinds, k.id = id ∧ env.turnsOn k.envName := by
  simp only [TurnsOn, turnsOn_eq_true_iff]

theorem get?_switchOn_of_turnsOn (h : env.TurnsOn id) (t : Table Bool) :
    (env.switchOn t).get? id = some true := by
  rw [switchOn_eq_foldl, get?_foldl_switch, if_pos (turnsOn_iff.1 h)]

theorem get?_switchOn_of_not_turnsOn (h : ¬ env.TurnsOn id) (t : Table Bool) :
    (env.switchOn t).get? id = t.get? id := by
  rw [switchOn_eq_foldl, get?_foldl_switch, if_neg (mt turnsOn_iff.2 h)]

theorem switchOn_switchOn (t : Table Bool) : env.switchOn (env.switchOn t) = env.switchOn t := by
  refine Table.ext_get? fun id => ?_
  by_cases h : env.TurnsOn id
  · rw [get?_switchOn_of_turnsOn h, get?_switchOn_of_turnsOn h]
  · rw [get?_switchOn_of_not_turnsOn h]

/-- A switch is filled like other settings, unless it is off and its kind is turned on. -/
theorem fills_switchOn_iff (t : Table Bool) :
    Fills (t.get? id) (fun on => on = true ∧ env.TurnsOn id) ((env.switchOn t).get? id) ↔
      ¬ (t.get? id = some false ∧ env.TurnsOn id) := by
  by_cases h : env.TurnsOn id
  · rw [get?_switchOn_of_turnsOn h]
    constructor
    · rintro hfills ⟨hoff, -⟩
      cases hfills.kept false hoff
    · intro hnot
      refine ⟨fun on hon => ?_, fun _ on => by simp [h, eq_comm]⟩
      cases on with
      | false => exact absurd ⟨hon, h⟩ hnot
      | true => rfl
  · rw [get?_switchOn_of_not_turnsOn h]
    refine iff_of_true ⟨fun on hon => hon, fun hgap on => ?_⟩ fun hoff => h hoff.2
    simp [hgap, h]

end Environment

/-! ### Whole configurations -/

/-- A text of a configuration, and the variable that is offered for it. -/
structure TextSetting where
  envName : String
  get : Config → String

/-- The texts that have a variable. -/
def textSettings : List TextSetting := [
  ⟨"WATCH_NAMESPACE", Config.namespaceName⟩,
  ⟨"KUBEWATCH_NAME", Config.instanceName⟩,
  ⟨"KW_WEBHOOK_URL", fun c => c.receivers.webhook.url⟩,
  ⟨"KW_WEBHOOK_CERT", fun c => c.receivers.webhook.certificate⟩,
  ⟨"KW_SLACK_WEBHOOK_URL", fun c => c.receivers.slack.url⟩,
  ⟨"KW_DISCORD_WEBHOOKURL", fun c => c.receivers.discordUrl⟩,
  ⟨"KW_MSTEAMS_WEBHOOKURL", fun c => c.receivers.teamsUrl⟩,
  ⟨"KW_LARK_WEBHOOK_URL", fun c => c.receivers.larkUrl⟩,
  ⟨"KW_CLOUDEVENT_URL", fun c => c.receivers.cloudEventUrl⟩,
  ⟨"WEBEX_ACCESS_TOKEN", fun c => c.receivers.webex.token⟩,
  ⟨"WEBEX_ROOM", fun c => c.receivers.webex.room⟩,
  ⟨"WEBEX_URL", fun c => c.receivers.webex.url⟩]

attribute [ext] Config ReceiverSettings WebhookSettings SlackSettings WebexSettings

namespace Config

/-- What the environment makes of a configuration.  Texts and the listen address are filled, kinds
are turned on, and all else is as it was. -/
structure FilledBy (c : Config) (env : Environment) (c' : Config) : Prop where
  texts : ∀ s ∈ textSettings, Fills (given (s.get c)) (env.Offers s.envName) (given (s.get c'))
  address : Fills c.listenAddress (env.Offers "LISTEN_ADDRESS") c'.listenAddress
  turnedOn : ∀ id, env.TurnsOn id → c'.switches.get? id = some true
  switches : ∀ id, ¬ env.TurnsOn id → c'.switches.get? id = c.switches.get? id
  customResources : c'.customResources = c.customResources
  ignored : c'.ignored = c.ignored
  syncTimeout : c'.syncTimeout = c.syncTimeout
  skipsCheck : c'.receivers.webhook.skipsCheck = c.receivers.webhook.skipsCheck
  channel : c'.receivers.slack.channel = c.receivers.slack.channel
  username : c'.receivers.slack.username = c.receivers.slack.username
  emoji : c'.receivers.slack.emoji = c.receivers.slack.emoji

variable {c c' c'' : Config} {env : Environment}

theorem get_filled (c : Config) (env : Environment) :
    ∀ s ∈ textSettings, s.get (c.filled env) = env.fill s.envName (s.get c) := by
  simp [textSettings, filled, ReceiverSettings.filled]

theorem switches_filled (c : Config) (env : Environment) :
    (c.filled env).switches = env.switchOn c.switches := by
  simp only [filled]

theorem filledBy_filled (c : Config) (env : Environment) : c.FilledBy env (c.filled env) where
  texts s hs := by
    rw [get_filled c env s hs, Environment.given_fill]
    exact Environment.fills_value? _
  address := Environment.fills_value? c.listenAddress
  turnedOn id h := by rw [switches_filled, Environment.get?_switchOn_of_turnsOn h]
  switches id h := by rw [switches_filled, Environment.get?_switchOn_of_not_turnsOn h]
  customResources := rfl
  ignored := rfl
  syncTimeout := rfl
  skipsCheck := rfl
  channel := rfl
  username := rfl
  emoji := rfl

/-- What the environment makes of a configuration is told in full. -/
theorem FilledBy.eq (h : c.FilledBy env c') (h' : c.FilledBy env c'') : c' = c'' := by
  have htexts : ∀ s ∈ textSettings, s.get c' = s.get c'' := fun s hs =>
    given_inj.1 ((h.texts s hs).eq (h'.texts s hs))
  simp only [textSettings, List.forall_mem_cons] at htexts
  obtain ⟨hnamespace, hinstance, hwebhook, hcertificate, hslack, hdiscord, hteams, hlark, hcloud,
    htoken, hroom, hwebex, -⟩ := htexts
  have hswitches : c'.switches = c''.switches := Table.ext_get? fun id => by
    by_cases hid : env.TurnsOn id
    · rw [h.turnedOn id hid, h'.turnedOn id hid]
    · rw [h.switches id hid, h'.switches id hid]
  have hreceivers : c'.receivers = c''.receivers := ReceiverSettings.ext
    (WebhookSettings.ext hwebhook hcertificate (h.skipsCheck.trans h'.skipsCheck.symm))
    (SlackSettings.ext hslack (h.channel.trans h'.channel.symm)
      (h.username.trans h'.username.symm) (h.emoji.trans h'.emoji.symm))
    hdiscord hteams hlark hcloud (WebexSettings.ext htoken hroom hwebex)
  exact Config.ext hreceivers hswitches (h.customResources.trans h'.customResources.symm)
    hnamespace hinstance (h.ignored.trans h'.ignored.symm) (h.address.eq h'.address)
    (h.syncTimeout.trans h'.syncTimeout.symm)

/-- The environment has nothing to add to what it has filled. -/
theorem filled_filled (c : Config) (env : Environment) :
    (c.filled env).filled env = c.filled env := by
  simp only [filled, ReceiverSettings.filled, Environment.fill_fill, Environment.switchOn_switchOn,
    Option.or_assoc, Option.or_self]

/-- **The environment fills gaps.**  Texts and the listen address are filled, what has no variable
is as it was, and filling once more changes nothing.  A switch is filled in the same way, with
`true` offered by the variable of its kind, unless it is off and that variable says `true`.  Such a
switch is not kept, but turned on. -/
theorem gaps_filled (c : Config) (env : Environment) :
    (∀ c', c.FilledBy env c' ↔ c' = c.filled env) ∧
    (c.filled env).filled env = c.filled env ∧
    ∀ id, Fills (c.switches.get? id) (fun on => on = true ∧ env.TurnsOn id)
        ((c.filled env).switches.get? id) ↔
      ¬ (c.switches.get? id = some false ∧ env.TurnsOn id) := by
  refine ⟨fun c' => ⟨fun h => h.eq (filledBy_filled c env), ?_⟩, filled_filled c env, fun id => ?_⟩
  · rintro rfl
    exact filledBy_filled c env
  · rw [switches_filled]
    exact Environment.fills_switchOn_iff c.switches

/-- Nodes are switched off, and are watched all the same if `KW_NODE` says `true`. -/
theorem false_switch_turned_on :
    ¬ ∀ (c : Config) (env : Environment) (id : String) (on : Bool),
      c.switches.get? id = some on → (c.filled env).switches.get? id = some on := by
  intro h
  let c : Config := { initial with switches := Table.ofList [("node", false)] }
  let env : Environment := fun name => if name = "KW_NODE" then some "true" else none
  have htrue : env.SaysTrue "KW_NODE" := ⟨"true", rfl, by decide⟩
  have hnode : env.TurnsOn "node" :=
    ⟨⟨"node", "KW_NODE", "Node", "", "v1", "nodes", false⟩, by decide, rfl, htrue⟩
  have hoff : (c.filled env).switches.get? "node" = some false := h c env "node" false (by decide)
  rw [(filledBy_filled c env).turnedOn "node" hnode] at hoff
  cases hoff

end Config

end ClusterHerald
