import CampusQuest.NotificationPort

/-!
What an administrator's copy can do to the transaction that records an event. A managed text
that lacks a value gives way to the seed, so what is left are the columns: a record fails
exactly when a text that it freezes does not fit them.
-/

namespace CampusQuest.Notifications

open Tables Guards Placeholders

section Texts

/-- The text with its placeholders filled in; one without a value becomes nothing. -/
def filled (values : Text → Option Text) (text : Text) : Text :=
  fill (fun name => (values name).getD []) (pieces text)

def TemplateText.filled (values : Text → Option Text) (t : TemplateText) : TemplateText :=
  ⟨Notifications.filled values t.title, Notifications.filled values t.body⟩

def TemplateText.names (t : TemplateText) : List Text :=
  holes (pieces t.title) ++ holes (pieces t.body)

def Carried (values : Text → Option Text) (t : TemplateText) : Prop :=
  ∀ name ∈ t.names, values name ≠ none

instance (values : Text → Option Text) (t : TemplateText) : Decidable (Carried values t) :=
  inferInstanceAs (Decidable (∀ name ∈ t.names, values name ≠ none))

def Storable (t : TemplateText) : Prop :=
  (nul ∉ t.title ∧ ∀ c ∈ t.title.drop 255, c = ' ') ∧ nul ∉ t.body

/-- With the payload's values the title has 255 characters, and spaces at most after them; and
no value that the template uses holds a NUL. -/
def TextFits (values : Text → Option Text) (t : TemplateText) : Prop :=
  (∀ c ∈ (filled values t.title).drop 255, c = ' ') ∧
    ∀ name ∈ t.names, ∀ value, values name = some value → nul ∉ value

/-- The managed text that takes the place of the seed: of an enabled row, all of whose variables
the payload carries. -/
def overridingText (templates : List ManagedTemplate) (event : NotificationEventType)
    (channel : NotificationChannel) (values : Text → Option Text) : Option TemplateText :=
  (channelTemplate templates event channel).bind fun row =>
    if row.enabled = true ∧ Carried values row.text then some row.text else none

def CopyFits (templates : List ManagedTemplate) (values : Text → Option Text)
    (intent : RecordIntent) : Prop :=
  TextFits values ((overridingText templates intent.eventType .inApp values).getD
    (defaultTemplates intent.eventType .inApp)) ∧
  ∀ channel ∈ intent.channels, channel ≠ .inApp →
    ∀ t, overridingText templates intent.eventType channel values = some t → TextFits values t

end Texts

section Renders

variable {event : NotificationEventType} {channel : NotificationChannel}
  {values : Text → Option Text} {text : Text} {t rendered : TemplateText}

theorem substitutePlaceholders_ok (hknown : ∀ name ∈ holes (pieces text), Known event name)
    {out : Text} : substitutePlaceholders event channel values text = .ok out ↔
      (∀ name ∈ holes (pieces text), values name ≠ none) ∧ out = filled values text := by
  unfold substitutePlaceholders filled
  refine substitute_ok fun name hname value => ?_
  unfold placeholderValue
  rw [ensure_bind_ok, orRefuse_ok]
  exact and_iff_right (hknown name hname)

/-- A template of known variables renders exactly when the payload carries all of them. -/
theorem renderTemplate_ok {template : Option TemplateText}
    (hsource : template.getD (defaultTemplates event channel) = t)
    (hknown : ∀ name ∈ t.names, Known event name) :
    renderTemplate event channel values template = .ok rendered ↔
      Carried values t ∧ rendered = t.filled values := by
  have htitle : ∀ name ∈ holes (pieces t.title), Known event name :=
    fun name hname => hknown name (List.mem_append_left _ hname)
  have hbody : ∀ name ∈ holes (pieces t.body), Known event name :=
    fun name hname => hknown name (List.mem_append_right _ hname)
  unfold renderTemplate
  rw [hsource]
  dsimp only
  rw [bind_ok]
  unfold Carried TemplateText.names
  simp only [List.mem_append, or_imp, forall_and]
  constructor
  · rintro ⟨title, h₁, h⟩
    obtain ⟨body, h₂, h⟩ := bind_ok.mp h
    cases h
    obtain ⟨hcarriedTitle, rfl⟩ := (substitutePlaceholders_ok htitle).mp h₁
    obtain ⟨hcarriedBody, rfl⟩ := (substitutePlaceholders_ok hbody).mp h₂
    exact ⟨⟨hcarriedTitle, hcarriedBody⟩, rfl⟩
  · rintro ⟨⟨hcarriedTitle, hcarriedBody⟩, rfl⟩
    refine ⟨_, (substitutePlaceholders_ok htitle).mpr ⟨hcarriedTitle, rfl⟩, ?_⟩
    exact bind_ok.mpr ⟨_, (substitutePlaceholders_ok hbody).mpr ⟨hcarriedBody, rfl⟩, rfl⟩

def Sound (event : NotificationEventType) (t : TemplateText) : Prop :=
  (∀ name ∈ t.names, Known event name) ∧ nul ∉ t.title ∧ nul ∉ t.body

instance (event : NotificationEventType) (t : TemplateText) : Decidable (Sound event t) :=
  inferInstanceAs (Decidable (_ ∧ _))

theorem sound_of_chars {title body : String} {l m : List Char} (htitle : title = String.ofList l)
    (hbody : body = String.ofList m) (h : Sound event ⟨l, m⟩) :
    Sound event ⟨title.toList, body.toList⟩ := by
  subst htitle hbody
  rw [String.toList_ofList, String.toList_ofList]
  exact h

set_option maxRecDepth 4000 in
/-- The check of the seeds at import, for those that are rendered. -/
theorem seed_sound (event : NotificationEventType) :
    Sound event (defaultTemplates event .inApp) := by
  cases event <;> exact sound_of_chars rfl rfl (by decide +kernel)

/-- The rendered seed, where the payload carries its variables. -/
theorem renderTemplate_seed_ok {values : Text → Option Text} {event : NotificationEventType}
    {rendered : TemplateText} : renderTemplate event .inApp values none = .ok rendered ↔
      Carried values (defaultTemplates event .inApp) ∧
        rendered = (defaultTemplates event .inApp).filled values :=
  renderTemplate_ok rfl (seed_sound event).1

theorem ManagedTemplate.known (row : ManagedTemplate) :
    ∀ name ∈ row.text.names, Known row.eventType name := by
  obtain ⟨title, body, haccepted⟩ := row.accepted
  obtain ⟨htitle, hbody⟩ := validatedTexts_known haccepted
  intro name hname
  rcases List.mem_append.mp hname with h | h
  · exact htitle name h
  · exact hbody name h

theorem channelTemplate_eq {templates : List ManagedTemplate} {row : ManagedTemplate}
    (h : channelTemplate templates event channel = some row) : row.eventType = event := by
  have hfound := List.find?_some h
  rw [Bool.and_eq_true, decide_eq_true_eq] at hfound
  exact hfound.1

theorem renderManaged_eq (templates : List ManagedTemplate) (event : NotificationEventType)
    (channel : NotificationChannel) (values : Text → Option Text) :
    renderManaged templates event channel values =
      (overridingText templates event channel values).map (TemplateText.filled values) := by
  unfold renderManaged overridingText
  cases hrow : channelTemplate templates event channel with
  | none => rfl
  | some row =>
    have hevent := channelTemplate_eq hrow
    subst hevent
    rw [Option.bind_some]
    dsimp only
    by_cases henabled : row.enabled = true
    · rw [if_pos henabled]
      have hok : ∀ rendered,
          renderTemplate row.eventType channel values (some row.text) = .ok rendered ↔
            Carried values row.text ∧ rendered = row.text.filled values :=
        fun rendered => renderTemplate_ok rfl row.known
      by_cases hcarried : Carried values row.text
      · rw [(hok _).mpr ⟨hcarried, rfl⟩, if_pos ⟨henabled, hcarried⟩]
        rfl
      · rw [if_neg fun h => hcarried h.2]
        cases hrender : renderTemplate row.eventType channel values (some row.text) with
        | error e => rfl
        | ok rendered => exact absurd ((hok rendered).mp hrender).1 hcarried
    · rw [if_neg henabled, if_neg fun h => henabled h.1]
      rfl

/-- A filled text has no NUL if the template has none and no value that it uses. -/
theorem nul_not_mem_filled (hclean : nul ∉ text) : nul ∉ filled values text ↔
    ∀ name ∈ holes (pieces text), ∀ value, values name = some value → nul ∉ value := by
  have hliteral : ¬ Piece.lit nul ∈ pieces text := by
    intro h
    rcases lit_mem_scan h with h | h | h
    · exact absurd h (by decide)
    · cases h
    · exact hclean h
  unfold filled
  rw [mem_fill]
  constructor
  · intro h name hname value hvalue hnul
    refine h (Or.inr ⟨name, hname, ?_⟩)
    rw [hvalue]
    exact hnul
  · rintro h (hlit | ⟨name, hname, hnul⟩)
    · exact hliteral hlit
    · cases hvalue : values name with
      | none =>
        rw [hvalue] at hnul
        cases hnul
      | some value =>
        rw [hvalue] at hnul
        exact h name hname value hvalue hnul

/-- The columns take a filled template exactly when it fits. -/
theorem storable_filled (hclean : nul ∉ t.title ∧ nul ∉ t.body) :
    Storable (t.filled values) ↔ TextFits values t := by
  unfold Storable TextFits TemplateText.filled TemplateText.names
  rw [nul_not_mem_filled hclean.1, nul_not_mem_filled hclean.2]
  simp only [List.mem_append, or_imp, forall_and]
  tauto

end Renders

section Stores

variable {db db' : PortDb} {key : Text} {user : UserId} {event : NotificationEventType}
  {t : TemplateText} {intent : RecordIntent} {channel : NotificationChannel}

theorem storeVarchar_ok {width : ℕ} {text stored : Text} :
    storeVarchar width text = .ok stored ↔
      (nul ∉ text ∧ ∀ c ∈ text.drop width, c = ' ') ∧ stored = text.take width := by
  unfold storeVarchar
  rw [ensure_bind_ok]
  refine and_congr_right fun _ => ?_
  constructor
  · intro h
    cases h
    rfl
  · rintro rfl
    rfl

/-- A short key without NUL is stored as it is. -/
theorem storeVarchar_key (hlength : key.length ≤ 255) (hclean : nul ∉ key) :
    storeVarchar 255 key = .ok key := by
  refine storeVarchar_ok.mpr ⟨⟨hclean, ?_⟩, (List.take_of_length_le hlength).symm⟩
  rw [List.drop_eq_nil_of_le hlength]
  exact fun c hc => absurd hc List.not_mem_nil

/-- Under such a key a notification is inserted, or found, exactly when its text is storable. -/
theorem insertNotification_ok_iff (hlength : key.length ≤ 255) (hclean : nul ∉ key) :
    (∃ r, insertNotification db key user event t = .ok r) ↔ Storable t := by
  unfold insertNotification
  rw [storeVarchar_key hlength hclean]
  change (∃ r, (storeVarchar 255 t.title >>= fun title => storeText t.body >>= fun body => _)
    = .ok r) ↔ _
  constructor
  · rintro ⟨r, h⟩
    obtain ⟨title, htitle, h⟩ := bind_ok.mp h
    obtain ⟨body, hbody, _⟩ := bind_ok.mp h
    obtain ⟨hnul, _⟩ := ensure_bind_ok.mp hbody
    exact ⟨(storeVarchar_ok.mp htitle).1, hnul⟩
  · rintro ⟨htitle, hbody⟩
    rw [storeVarchar_ok.mpr ⟨htitle, rfl⟩]
    change ∃ r, (storeText t.body >>= _) = .ok r
    rw [show storeText t.body = .ok t.body from ensure_bind_ok.mpr ⟨hbody, rfl⟩]
    cases hget : db.notifications.get (key, user) with
    | none => exact ⟨_, rfl⟩
    | some row => exact ⟨((key, user), db), rfl⟩

@[simp] theorem insertNotification_templates {r : NotificationKey × PortDb}
    (h : insertNotification db key user event t = .ok r) : r.2.templates = db.templates := by
  unfold insertNotification at h
  obtain ⟨_, _, h⟩ := bind_ok.mp h
  obtain ⟨_, _, h⟩ := bind_ok.mp h
  obtain ⟨_, _, h⟩ := bind_ok.mp h
  split at h
  next =>
    cases h
    rfl
  next =>
    obtain ⟨_, h⟩ := ensure_bind_ok.mp h
    cases h
    rfl

theorem snapshotEventKey_ok (key : KeyText) (channel : NotificationChannel) :
    (snapshotEventKey key channel).length ≤ 255 ∧ nul ∉ snapshotEventKey key channel := by
  have hcode : (channelCode channel).length ≤ 6 ∧ nul ∉ channelCode channel ∧ nul ≠ ':' := by
    cases channel <;> decide
  obtain ⟨hlength, hclean, hcolon⟩ := hcode
  unfold snapshotEventKey
  constructor
  · have hkey := key.2.1
    rw [List.length_append, List.length_cons]
    omega
  · simp only [List.mem_append, List.mem_cons, not_or]
    exact ⟨key.2.2, hcolon, hclean⟩

theorem insertDelivery_ok (db : PortDb) (intent : RecordIntent) (channel : NotificationChannel)
    (notification : NotificationKey) :
    ∃ db', insertDelivery db intent channel notification = .ok db' ∧
      db'.templates = db.templates := by
  have hkey := intent.eventKey.2
  unfold insertDelivery
  rw [storeVarchar_key (by omega) hkey.2]
  cases hget : db.deliveries.get ((intent.eventKey.1, intent.userId), channel) with
  | some row =>
    refine ⟨db, ?_, rfl⟩
    simp only [bind, Except.bind, hget]
    rfl
  | none =>
    refine ⟨{ db with
      deliveries := db.deliveries.put ((intent.eventKey.1, intent.userId), channel)
        ⟨notification, .pending, intent.scheduledAt, 0⟩ }, ?_, rfl⟩
    simp only [bind, Except.bind, hget]
    rfl

/-- Deliveries are always inserted: nothing in them is copy. -/
theorem insertDeliveries_ok (intent : RecordIntent) (canonical : NotificationKey)
    (snapshots : List (NotificationChannel × NotificationKey)) (channels : List NotificationChannel)
    (db : PortDb) : ∃ db', insertDeliveries intent canonical snapshots db channels = .ok db' ∧
      db'.templates = db.templates := by
  induction channels generalizing db with
  | nil => exact ⟨db, rfl, rfl⟩
  | cons channel rest ih =>
    obtain ⟨db₁, hfirst, htemplates⟩ := insertDelivery_ok db intent channel
      ((snapshots.lookup channel).getD canonical)
    obtain ⟨db', hrest, hsame⟩ := ih db₁
    exact ⟨db', bind_ok.mpr ⟨db₁, hfirst, hrest⟩, hsame.trans htemplates⟩

/-- The channels freeze their texts exactly when each of these is storable. -/
theorem freezeChannels_ok_iff {values : Text → Option Text} {channels : List NotificationChannel} :
    (∃ r, freezeChannels intent values db channels = .ok r) ↔
      ∀ channel ∈ channels, channel ≠ .inApp → ∀ product,
        renderManaged db.templates intent.eventType channel values = some product →
          Storable product := by
  induction channels generalizing db with
  | nil => exact ⟨fun _ channel h => absurd h List.not_mem_nil, fun _ => ⟨([], db), rfl⟩⟩
  | cons channel rest ih =>
    rw [List.forall_mem_cons]
    unfold freezeChannels
    by_cases hinApp : channel = .inApp
    · rw [if_pos hinApp, ih]
      exact (and_iff_right fun h => absurd hinApp h).symm
    · rw [if_neg hinApp]
      cases hproduct : renderManaged db.templates intent.eventType channel values with
      | none =>
        dsimp only
        rw [ih]
        exact (and_iff_right fun _ product h => by cases h).symm
      | some product =>
        dsimp only
        obtain ⟨hlength, hclean⟩ := snapshotEventKey_ok intent.eventKey channel
        have hinsert : (∃ r, insertNotification db (snapshotEventKey intent.eventKey channel)
            intent.userId intent.eventType product = .ok r) ↔ Storable product :=
          insertNotification_ok_iff hlength hclean
        constructor
        · rintro ⟨r, h⟩
          obtain ⟨⟨snapshot, db₁⟩, hfirst, h⟩ := bind_ok.mp h
          obtain ⟨⟨snapshots, db₂⟩, hrest, _⟩ := bind_ok.mp h
          have htemplates := insertNotification_templates hfirst
          refine ⟨fun _ other hother => ?_, ?_⟩
          · cases hother
            exact hinsert.mp ⟨_, hfirst⟩
          · rw [← htemplates]
            exact ih.mp ⟨_, hrest⟩
        · rintro ⟨hfirst, hrest⟩
          obtain ⟨⟨snapshot, db₁⟩, hfirst⟩ := hinsert.mpr (hfirst hinApp product rfl)
          rw [← insertNotification_templates hfirst] at hrest
          obtain ⟨⟨snapshots, db₂⟩, hrest⟩ := ih.mpr hrest
          exact ⟨_, bind_ok.mpr ⟨_, hfirst, bind_ok.mpr ⟨_, hrest, rfl⟩⟩⟩

theorem freezeChannels_templates {values : Text → Option Text} {channels : List NotificationChannel}
    {r : List (NotificationChannel × NotificationKey) × PortDb}
    (h : freezeChannels intent values db channels = .ok r) : r.2.templates = db.templates := by
  induction channels generalizing db r with
  | nil =>
    cases h
    rfl
  | cons channel rest ih =>
    unfold freezeChannels at h
    split at h
    next => exact ih h
    next =>
      split at h
      next => exact ih h
      next =>
        obtain ⟨⟨snapshot, db₁⟩, hfirst, h⟩ := bind_ok.mp h
        obtain ⟨⟨snapshots, db₂⟩, hrest, h⟩ := bind_ok.mp h
        cases h
        exact (ih hrest).trans (insertNotification_templates hfirst)

end Stores

section Records

variable {db : PortDb} {payload : Payload} {intent : RecordIntent}

def SeedRenders (payload : Payload) (event : NotificationEventType) : Prop :=
  ∃ values rendered, eventValues payload event = .ok values ∧
    renderTemplate event .inApp values none = .ok rendered

/-- The text of the inbox row is the overriding one, or the seed. -/
theorem renderInAppSnapshot_eq {values : Text → Option Text} {event : NotificationEventType}
    (hcarried : Carried values (defaultTemplates event .inApp)) :
    renderInAppSnapshot db.templates event values = .ok
      (((overridingText db.templates event .inApp values).getD
        (defaultTemplates event .inApp)).filled values) := by
  unfold renderInAppSnapshot
  rw [renderManaged_eq]
  cases overridingText db.templates event .inApp values with
  | some t => rfl
  | none =>
    dsimp only [Option.map_none, Option.getD_none]
    rw [renderTemplate_seed_ok.mpr ⟨hcarried, rfl⟩]
    rfl

/-- The text that overrides was stored, so it holds no NUL. -/
theorem overridingText_clean {templates : List ManagedTemplate} {event : NotificationEventType}
    {channel : NotificationChannel} {values : Text → Option Text} {t : TemplateText}
    (h : overridingText templates event channel values = some t) :
    nul ∉ t.title ∧ nul ∉ t.body := by
  unfold overridingText at h
  cases hrow : channelTemplate templates event channel with
  | none =>
    rw [hrow] at h
    cases h
  | some row =>
    rw [hrow, Option.bind_some] at h
    split at h
    next =>
      cases h
      exact row.clean
    next => cases h

theorem snapshot_clean (templates : List ManagedTemplate) (event : NotificationEventType)
    (values : Text → Option Text) :
    let t := (overridingText templates event .inApp values).getD (defaultTemplates event .inApp)
    nul ∉ t.title ∧ nul ∉ t.body := by
  dsimp only
  cases h : overridingText templates event .inApp values with
  | none => exact (seed_sound event).2
  | some t => exact overridingText_clean h

/-- An intent whose seed renders is persisted exactly when every text that it freezes fits. -/
theorem persistIntent_ok_iff {values : Text → Option Text} (hchannels : intent.channels ≠ [])
    (hvalues : eventValues payload intent.eventType = .ok values)
    (hcarried : Carried values (defaultTemplates intent.eventType .inApp)) :
    (∃ db', persistIntent payload db intent = .ok db') ↔ CopyFits db.templates values intent := by
  have hkey := intent.eventKey.2
  have hcanonical : (∃ r, insertNotification db intent.eventKey.1 intent.userId intent.eventType
      (((overridingText db.templates intent.eventType .inApp values).getD
        (defaultTemplates intent.eventType .inApp)).filled values) = .ok r) ↔
      TextFits values ((overridingText db.templates intent.eventType .inApp values).getD
        (defaultTemplates intent.eventType .inApp)) := by
    rw [insertNotification_ok_iff (by omega) hkey.2]
    exact storable_filled (snapshot_clean _ _ _)
  have hproducts : ∀ channel, (∀ product, renderManaged db.templates intent.eventType channel
      values = some product → Storable product) ↔ ∀ t, overridingText db.templates
        intent.eventType channel values = some t → TextFits values t := by
    intro channel
    rw [renderManaged_eq]
    constructor
    · intro h t ht
      rw [← storable_filled (overridingText_clean ht)]
      exact h _ (by rw [ht]; rfl)
    · intro h product hproduct
      obtain ⟨t, ht, rfl⟩ := Option.map_eq_some_iff.mp hproduct
      exact (storable_filled (overridingText_clean ht)).mpr (h t ht)
  unfold persistIntent CopyFits
  rw [if_neg hchannels, hvalues]
  change (∃ db', (renderInAppSnapshot db.templates intent.eventType values >>= _) = .ok db') ↔ _
  rw [renderInAppSnapshot_eq hcarried]
  change (∃ db', (insertNotification db intent.eventKey.1 intent.userId intent.eventType _ >>= _) =
    .ok db') ↔ _
  constructor
  · rintro ⟨db', h⟩
    obtain ⟨⟨canonical, db₁⟩, hinsert, h⟩ := bind_ok.mp h
    obtain ⟨⟨snapshots, db₂⟩, hfreeze, _⟩ := bind_ok.mp h
    refine ⟨hcanonical.mp ⟨_, hinsert⟩, fun channel hchannel hinApp => ?_⟩
    rw [← hproducts, ← insertNotification_templates hinsert]
    exact freezeChannels_ok_iff.mp ⟨_, hfreeze⟩ channel hchannel hinApp
  · rintro ⟨hfits, hall⟩
    obtain ⟨⟨canonical, db₁⟩, hinsert⟩ := hcanonical.mpr hfits
    have hfreeze : ∃ r, freezeChannels intent values db₁ intent.channels = .ok r := by
      rw [freezeChannels_ok_iff, insertNotification_templates hinsert]
      exact fun channel hchannel hinApp => (hproducts channel).mpr (hall channel hchannel hinApp)
    obtain ⟨⟨snapshots, db₂⟩, hfreeze⟩ := hfreeze
    obtain ⟨db', hdeliveries, _⟩ :=
      insertDeliveries_ok intent canonical snapshots intent.channels db₂
    exact ⟨db', bind_ok.mpr ⟨_, hinsert, bind_ok.mpr ⟨_, hfreeze, hdeliveries⟩⟩⟩

theorem persistIntent_templates {db' : PortDb} (h : persistIntent payload db intent = .ok db') :
    db'.templates = db.templates := by
  unfold persistIntent at h
  split at h
  next =>
    cases h
    rfl
  next =>
    obtain ⟨_, _, h⟩ := bind_ok.mp h
    obtain ⟨_, _, h⟩ := bind_ok.mp h
    obtain ⟨⟨canonical, db₁⟩, hinsert, h⟩ := bind_ok.mp h
    obtain ⟨⟨snapshots, db₂⟩, hfreeze, h⟩ := bind_ok.mp h
    obtain ⟨db₃, hdeliveries, hsame⟩ :=
      insertDeliveries_ok intent canonical snapshots intent.channels db₂
    have h : insertDeliveries intent canonical snapshots db₂ intent.channels = .ok db' := h
    rw [hdeliveries] at h
    cases h
    exact (hsame.trans (freezeChannels_templates hfreeze)).trans
      (insertNotification_templates hinsert)

def IntentFits (templates : List ManagedTemplate) (payload : Payload) (intent : RecordIntent) :
    Prop :=
  intent.channels ≠ [] → ∀ values, eventValues payload intent.eventType = .ok values →
    CopyFits templates values intent

theorem persistIntent_ok_iff_fits
    (hseed : intent.channels ≠ [] → SeedRenders payload intent.eventType) :
    (∃ db', persistIntent payload db intent = .ok db') ↔ IntentFits db.templates payload intent := by
  by_cases hchannels : intent.channels = []
  · have hskip : persistIntent payload db intent = .ok db := if_pos hchannels
    exact ⟨fun _ h => absurd hchannels h, fun _ => ⟨db, hskip⟩⟩
  · obtain ⟨values, rendered, hvalues, hrender⟩ := hseed hchannels
    obtain ⟨hcarried, _⟩ := renderTemplate_seed_ok.mp hrender
    rw [persistIntent_ok_iff hchannels hvalues hcarried]
    constructor
    · intro h _ values' hvalues'
      rw [hvalues] at hvalues'
      cases hvalues'
      exact h
    · intro h
      exact h hchannels values hvalues

theorem persistIntents_ok_iff {intents : List RecordIntent}
    (hseed : ∀ intent ∈ intents, intent.channels ≠ [] → SeedRenders payload intent.eventType) :
    (∃ db', persistIntents payload db intents = .ok db') ↔
      ∀ intent ∈ intents, IntentFits db.templates payload intent := by
  induction intents generalizing db with
  | nil => exact ⟨fun _ intent h => absurd h List.not_mem_nil, fun _ => ⟨db, rfl⟩⟩
  | cons intent rest ih =>
    rw [List.forall_mem_cons] at hseed ⊢
    constructor
    · rintro ⟨db', h⟩
      obtain ⟨db₁, hfirst, hrest⟩ := bind_ok.mp h
      refine ⟨(persistIntent_ok_iff_fits hseed.1).mp ⟨db₁, hfirst⟩, ?_⟩
      rw [← persistIntent_templates hfirst]
      exact (ih hseed.2).mp ⟨db', hrest⟩
    · rintro ⟨hfirst, hrest⟩
      obtain ⟨db₁, hfirst⟩ := (persistIntent_ok_iff_fits hseed.1).mpr hfirst
      rw [← persistIntent_templates hfirst] at hrest
      obtain ⟨db', hrest⟩ := (ih hseed.2).mpr hrest
      exact ⟨db', bind_ok.mpr ⟨db₁, hfirst, hrest⟩⟩

/-- A record persists what the routing made of the event. -/
theorem recordEvent_eq {parseUuid : Text → Option Uuid} {now : Instant} {eventKey : KeyText}
    {recorded : RecordedEvent} {userId : UserId} {user : User}
    {policy : Option TaskNotificationPolicy} {intents : List RecordIntent}
    (huser : db.users.get userId = some user)
    (hintents : buildRecordIntents parseUuid user userId eventKey recorded payload now policy =
      .ok intents) :
    recordEvent parseUuid db now eventKey recorded userId payload policy =
      persistIntents payload db intents := by
  unfold recordEvent
  rw [huser]
  change (buildRecordIntents parseUuid user userId eventKey recorded payload now policy >>= _) = _
  rw [hintents]
  rfl

/-- An event whose seeds render is recorded exactly when every text that it freezes, managed or
seed, fits the columns with the payload's values in it. -/
theorem recorded_iff_fits {parseUuid : Text → Option Uuid} {now : Instant} {eventKey : KeyText}
    {recorded : RecordedEvent} {userId : UserId} {user : User}
    {policy : Option TaskNotificationPolicy} {intents : List RecordIntent}
    (huser : db.users.get userId = some user)
    (hintents : buildRecordIntents parseUuid user userId eventKey recorded payload now policy =
      .ok intents)
    (hseed : ∀ intent ∈ intents, intent.channels ≠ [] → SeedRenders payload intent.eventType) :
    (∃ db', recordEvent parseUuid db now eventKey recorded userId payload policy = .ok db') ↔
      ∀ intent ∈ intents, IntentFits db.templates payload intent := by
  rw [recordEvent_eq huser hintents]
  exact persistIntents_ok_iff hseed

/-- The title that an administrator wrote for approved submissions: the task's title. -/
def titleCopy : ManagedTemplate where
  eventType := .submissionApproved
  channel := .inApp
  text := ⟨"{task_title}".toList, ['b']⟩
  enabled := true
  version := 1
  version_pos := by decide
  accepted := ⟨some "{task_title}".toList, some ['b'], by rfl⟩
  clean := by decide +kernel

def oneStudent : PortDb :=
  ⟨.put .empty 7 ⟨.active, none, none, none⟩, [titleCopy], .empty, .empty⟩

/-- The payload of an approved submission under a task with so long a title. -/
def approvedPayload (length : ℕ) : Payload :=
  [("task_title".toList, .text (List.replicate length 'a')), ("reward_points".toList, .int 10)]

def approvedKey : KeyText := ⟨['k'], by decide, by decide⟩

def approvedIntent : RecordIntent := ⟨approvedKey, .submissionApproved, 7, 0, [.inApp]⟩

theorem approved_seedRenders (length : ℕ) :
    SeedRenders (approvedPayload length) .submissionApproved := by
  refine ⟨_, _, rfl, renderTemplate_seed_ok.mpr ⟨?_, rfl⟩⟩
  intro name hname
  obtain ⟨_, hvariable⟩ := (seed_sound .submissionApproved).1 name hname
  simp only [eventVariables, List.mem_cons, List.not_mem_nil, or_false] at hvariable
  rcases hvariable with rfl | rfl
  · exact Option.ne_none_iff_isSome.mpr rfl
  · exact Option.ne_none_iff_isSome.mpr rfl

/-- The student has no phone and no e-mail, so the event reaches the inbox only. -/
theorem approved_intents (length : ℕ) : buildRecordIntents (fun _ => none)
    ⟨.active, none, none, none⟩ 7 approvedKey (.event .submissionApproved) (approvedPayload length)
      0 none = .ok [approvedIntent] := rfl

theorem recorded_iff_fits_short :
    (∃ db', recordEvent (fun _ => none) oneStudent 0 approvedKey (.event .submissionApproved) 7
      (approvedPayload 20) none = .ok db') ↔
        ∀ intent ∈ [approvedIntent], IntentFits [titleCopy] (approvedPayload 20) intent :=
  recorded_iff_fits rfl (approved_intents 20)
    (List.forall_mem_singleton.mpr fun _ => approved_seedRenders 20)

/-- With a title of 256 characters the copy fails the record, although the seed renders. -/
theorem record_fails_on_copy : ¬ ∀ (parseUuid : Text → Option Uuid) (db : PortDb) (now : Instant)
    (eventKey : KeyText) (recorded : RecordedEvent) (userId : UserId) (user : User)
    (payload : Payload) (policy : Option TaskNotificationPolicy) (intents : List RecordIntent),
    db.users.get userId = some user →
    buildRecordIntents parseUuid user userId eventKey recorded payload now policy = .ok intents →
    (∀ intent ∈ intents, intent.channels ≠ [] → SeedRenders payload intent.eventType) →
    ∃ db', recordEvent parseUuid db now eventKey recorded userId payload policy = .ok db' := by
  intro h
  have hseed : ∀ intent ∈ [approvedIntent], intent.channels ≠ [] →
      SeedRenders (approvedPayload 256) intent.eventType :=
    List.forall_mem_singleton.mpr fun _ => approved_seedRenders 256
  obtain ⟨db', hrecorded⟩ := h _ oneStudent 0 approvedKey _ 7 _ _ none _ rfl
    (approved_intents 256) hseed
  rw [recordEvent_eq rfl (approved_intents 256)] at hrecorded
  have hfits := (persistIntents_ok_iff hseed).mp ⟨db', hrecorded⟩
  obtain ⟨⟨htitle, _⟩, _⟩ := List.forall_mem_singleton.mp hfits (by decide) _ rfl
  have hlast : 'a' ∈ (List.replicate 256 'a' ++ []).drop 255 := by
    rw [List.append_nil, List.drop_replicate]
    exact List.mem_singleton_self 'a'
  exact absurd (htitle 'a' hlast) (by decide)

end Records

end CampusQuest.Notifications
