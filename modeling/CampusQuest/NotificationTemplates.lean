import CampusQuest.DeliveryRows
import CampusQuest.Placeholders

/-!
The templates of notifications: the variables of each event, the seed texts, the one renderer
and the gate that an administrator's text passes before it is stored. A managed template
carries its passage through the gate.
-/

namespace CampusQuest.Notifications

open Guards Placeholders

def eventVariables : NotificationEventType → List Text
  | .assignmentDeadline24h => ["task_title".toList, "deadline_at".toList]
  | .assignmentDeadline4h => ["task_title".toList, "deadline_at".toList]
  | .revisionRequired =>
    ["task_title".toList, "revision_deadline_at".toList, "review_comment".toList]
  | .submissionApproved => ["task_title".toList, "reward_points".toList]
  | .submissionValidationFailed => ["task_title".toList, "validation_summary".toList]
  | .rewardRedemptionApproved => ["item_name".toList, "points_spent".toList]
  | .rewardRedemptionRejected =>
    ["item_name".toList, "rejection_reason".toList, "points_refunded".toList]
  | .accountSecurity => ["event_summary".toList, "event_time".toList]
  | .ieAchievementApproved => ["achievement_title".toList]
  | .ieAchievementReturned => ["achievement_title".toList, "review_reason".toList]
  | .ieRecruitmentConfirmationDue => ["role_name".toList, "manage_path".toList]

structure TemplateText where
  title : Text
  body : Text
  deriving DecidableEq

def smsSignature : Text := "【CampusQuest】".toList

def emailSignoff : Text := "\n—— CampusQuest".toList

def defaultTemplates : NotificationEventType → NotificationChannel → TemplateText
  | .assignmentDeadline24h, .sms => ⟨"任务24小时后截止".toList,
    "您领取的任务《{task_title}》将于{deadline_at}截止，请尽快提交。".toList ++ smsSignature⟩
  | .assignmentDeadline24h, .email => ⟨"任务将于24小时后截止".toList,
    "您好：\n您领取的任务《{task_title}》将于{deadline_at}截止，请及时完成并提交。\n如已提交，请忽略本邮件。".toList ++ emailSignoff⟩
  | .assignmentDeadline24h, .inApp => ⟨"任务将于24小时后截止".toList,
    "您领取的任务《{task_title}》将于{deadline_at}截止，请尽快提交。".toList⟩
  | .assignmentDeadline4h, .sms => ⟨"任务4小时后截止".toList,
    "您领取的任务《{task_title}》将于{deadline_at}截止，请立即提交。".toList ++ smsSignature⟩
  | .assignmentDeadline4h, .email => ⟨"任务将于4小时后截止".toList,
    "您好：\n您领取的任务《{task_title}》将于{deadline_at}截止，请尽快完成并提交。\n如已提交，请忽略本邮件。".toList ++ emailSignoff⟩
  | .assignmentDeadline4h, .inApp => ⟨"任务将于4小时后截止".toList,
    "您领取的任务《{task_title}》将于{deadline_at}截止，请立即提交。".toList⟩
  | .revisionRequired, .sms => ⟨"提交需修改".toList,
    "您在任务《{task_title}》的提交需修改，请在{revision_deadline_at}前重新提交。".toList ++ smsSignature⟩
  | .revisionRequired, .email => ⟨"提交需要修改".toList,
    "您好：\n您在任务《{task_title}》的提交未通过审核，".toList ++
      "请在{revision_deadline_at}前修改后重新提交。\n审核意见：{review_comment}".toList ++ emailSignoff⟩
  | .revisionRequired, .inApp => ⟨"提交需要修改".toList,
    "您在任务《{task_title}》的提交未通过审核，请在{revision_deadline_at}前修改后重新提交。审核意见：{review_comment}".toList⟩
  | .submissionApproved, .sms => ⟨"任务审核通过".toList,
    "您在任务《{task_title}》的提交已通过审核，获得{reward_points}积分。".toList ++ smsSignature⟩
  | .submissionApproved, .email => ⟨"任务审核通过".toList,
    "您好：\n您在任务《{task_title}》的提交已通过审核，{reward_points}积分已入账。".toList ++ emailSignoff⟩
  | .submissionApproved, .inApp => ⟨"任务审核通过".toList,
    "您在任务《{task_title}》的提交已通过审核，获得{reward_points}积分。".toList⟩
  | .submissionValidationFailed, .sms => ⟨"提交校验未通过".toList,
    "您在任务《{task_title}》的提交未通过自动校验，请修正后重新提交。".toList ++ smsSignature⟩
  | .submissionValidationFailed, .email => ⟨"提交未通过自动校验".toList,
    "您好：\n您在任务《{task_title}》的提交未通过自动校验：{validation_summary}\n请修正问题后重新提交。".toList ++ emailSignoff⟩
  | .submissionValidationFailed, .inApp => ⟨"提交未通过自动校验".toList,
    "您在任务《{task_title}》的提交未通过自动校验：{validation_summary}。请修正后重新提交。".toList⟩
  | .rewardRedemptionApproved, .sms => ⟨"兑换成功".toList,
    "您兑换的「{item_name}」已通过审核，消耗{points_spent}积分，请留意领取通知。".toList ++ smsSignature⟩
  | .rewardRedemptionApproved, .email => ⟨"兑换申请已通过".toList,
    "您好：\n您使用{points_spent}积分兑换的「{item_name}」已通过审核，请按站内通知的领取方式领取。".toList ++ emailSignoff⟩
  | .rewardRedemptionApproved, .inApp => ⟨"兑换申请已通过".toList,
    "您兑换的「{item_name}」已通过审核，消耗{points_spent}积分。".toList⟩
  | .rewardRedemptionRejected, .sms => ⟨"兑换未通过".toList,
    "您对「{item_name}」的兑换未通过，{points_refunded}积分已退回。".toList ++ smsSignature⟩
  | .rewardRedemptionRejected, .email => ⟨"兑换申请未通过".toList,
    "您好：\n您对「{item_name}」的兑换申请未通过，".toList ++
      "原因：{rejection_reason}。\n冻结的{points_refunded}积分已退回可用余额。".toList ++ emailSignoff⟩
  | .rewardRedemptionRejected, .inApp => ⟨"兑换申请未通过".toList,
    "您对「{item_name}」的兑换申请未通过，原因：{rejection_reason}。{points_refunded}积分已退回。".toList⟩
  | .accountSecurity, .sms => ⟨"账号安全提醒".toList,
    "{event_time}，{event_summary}。如非本人操作，请尽快修改密码。".toList ++ smsSignature⟩
  | .accountSecurity, .email => ⟨"账号安全提醒".toList,
    "您好：\n{event_time}，{event_summary}。\n如非本人操作，请立即修改密码并检查账号安全设置。".toList ++ emailSignoff⟩
  | .accountSecurity, .inApp => ⟨"账号安全提醒".toList,
    "{event_time}，{event_summary}。如非本人操作，请尽快修改密码。".toList⟩
  | .ieAchievementApproved, _ => ⟨"成果核实通过".toList,
    "您的成果《{achievement_title}》已核实通过，公开版本已更新；已下架成果仍保持下架。".toList⟩
  | .ieAchievementReturned, _ => ⟨"成果核实退回".toList,
    "您的成果《{achievement_title}》已退回。原因：{review_reason}。请修改后重新提交。".toList⟩
  | .ieRecruitmentConfirmationDue, _ => ⟨"请确认招募是否继续".toList,
    "岗位《{role_name}》已到确认时间。若仍在招募，请前往 {manage_path} 确认继续；未回复会保持开放。".toList⟩

section Rendering

/-- A lower-case ASCII letter, and what may follow it in a name. -/
def nameStart (c : Char) : Bool := 'a' ≤ c && c ≤ 'z'

def nameRest (c : Char) : Bool := nameStart c || ('0' ≤ c && c ≤ '9') || c = '_'

/-- `_VARIABLE_NAME_RE`; its `$` also matches before a line end that ends the text. -/
def variableName (name : Text) : Bool :=
  match (if name.getLast? = some '\n' then name.dropLast else name) with
  | [] => false
  | c :: rest => nameStart c && rest.all nameRest

inductive TemplateField
  | title
  | templateBody
  deriving DecidableEq, Repr

/-- The render errors; `unsafeMarkup` is the write gate's only. -/
inductive TemplateRenderError
  | invalid (event : NotificationEventType) (channel : NotificationChannel) (placeholder : Text)
      (known : List Text)
  | missing (event : NotificationEventType) (channel : NotificationChannel) (name : Text)
  | unsafeMarkup (event : NotificationEventType) (channel : NotificationChannel)
      (field : TemplateField) (marker : Text)
  deriving DecidableEq

def pieces (text : Text) : List (Piece Char) := scan '{' '}' none text

def Known (event : NotificationEventType) (name : Text) : Prop :=
  variableName name = true ∧ name ∈ eventVariables event

instance (event : NotificationEventType) (name : Text) : Decidable (Known event name) :=
  inferInstanceAs (Decidable (_ ∧ _))

def placeholderValue (event : NotificationEventType) (channel : NotificationChannel)
    (values : Text → Option Text) (name : Text) : Except TemplateRenderError Text := do
  ensure (Known event name) (.invalid event channel name (eventVariables event))
  orRefuse (.missing event channel name) (values name)

def substitutePlaceholders (event : NotificationEventType) (channel : NotificationChannel)
    (values : Text → Option Text) (text : Text) : Except TemplateRenderError Text :=
  substitute (placeholderValue event channel values) (pieces text)

def renderTemplate (event : NotificationEventType) (channel : NotificationChannel)
    (values : Text → Option Text) (template : Option TemplateText) :
    Except TemplateRenderError TemplateText := do
  let source := template.getD (defaultTemplates event channel)
  let title ← substitutePlaceholders event channel values source.title
  let body ← substitutePlaceholders event channel values source.body
  return ⟨title, body⟩

end Rendering

section Gate

def unsafeTemplateMarkers : List Text := [['{', '{'], ['}', '}'], ['{', '%'], ['$', '{']]

def occursIn (marker text : Text) : Bool := text.tails.any fun t => marker.isPrefixOf t

def findUnsafeTemplateMarker (text : Text) : Option Text :=
  unsafeTemplateMarkers.find? fun marker => occursIn marker text

def rejectMarkup (event : NotificationEventType) (channel : NotificationChannel)
    (field : TemplateField) (text : Text) : Except TemplateRenderError Unit :=
  match findUnsafeTemplateMarker text with
  | some marker => .error (.unsafeMarkup event channel field marker)
  | none => .ok ()

def rejectUnknown (event : NotificationEventType) (channel : NotificationChannel) (text : Text) :
    Except TemplateRenderError Unit :=
  match (holes (pieces text)).find? fun name => ¬ Known event name with
  | some name => .error (.invalid event channel name (eventVariables event))
  | none => .ok ()

def validateAdminTemplate (event : NotificationEventType) (channel : NotificationChannel)
    (title body : Text) : Except TemplateRenderError Unit := do
  rejectMarkup event channel .title title
  rejectMarkup event channel .templateBody body
  rejectUnknown event channel title
  rejectUnknown event channel body

inductive TemplateRefusal
  | notStrings
  | blank (field : TemplateField)
  | titleTooLong
  | unsafeMarkup (field : TemplateField) (marker : Text) (event : NotificationEventType)
      (channel : NotificationChannel)
  | invalidPlaceholder (field : TemplateField) (placeholder : Text) (known : List Text)
      (event : NotificationEventType) (channel : NotificationChannel)
  | internal
  deriving DecidableEq

def titleMaxLength : ℕ := 255

/-- A gate error as the administrator sees it. A placeholder is looked for in the title first. -/
def refusalOf (title : Text) : TemplateRenderError → TemplateRefusal
  | .unsafeMarkup event channel field marker => .unsafeMarkup field marker event channel
  | .invalid event channel placeholder known =>
    .invalidPlaceholder
      (if occursIn ('{' :: placeholder ++ ['}']) title then .title else .templateBody)
      placeholder known event channel
  | .missing _ _ _ => .internal

def validatedTexts (event : NotificationEventType) (channel : NotificationChannel)
    (title body : Option Text) : Except TemplateRefusal TemplateText :=
  match title, body with
  | some title, some body => do
    let storedTitle := strip title
    let storedBody := strip body
    ensure (storedTitle ≠ []) (.blank .title)
    ensure (storedTitle.length ≤ titleMaxLength) .titleTooLong
    ensure (storedBody ≠ []) (.blank .templateBody)
    (validateAdminTemplate event channel storedTitle storedBody).mapError (refusalOf storedTitle)
    return ⟨storedTitle, storedBody⟩
  | _, _ => .error .notStrings

end Gate

/-- PostgreSQL keeps no NUL in a text. -/
def nul : Char := Char.ofNat 0

/-- A row of the table of templates. Its texts were stored, so they hold no NUL, and they are
what the gate let pass. -/
structure ManagedTemplate where
  eventType : NotificationEventType
  channel : NotificationChannel
  text : TemplateText
  enabled : Bool
  version : ℕ
  version_pos : 1 ≤ version
  accepted : ∃ title body, validatedTexts eventType channel title body = .ok text
  clean : nul ∉ text.title ∧ nul ∉ text.body

section Accepted

variable {event : NotificationEventType} {channel : NotificationChannel} {text : Text}

theorem rejectUnknown_ok {u : Unit} :
    rejectUnknown event channel text = .ok u ↔ ∀ name ∈ holes (pieces text), Known event name := by
  unfold rejectUnknown
  cases hfind : (holes (pieces text)).find? fun name => ¬ Known event name with
  | none =>
    rw [List.find?_eq_none] at hfind
    simpa using hfind
  | some name =>
    have hmem := List.mem_of_find?_eq_some hfind
    have hunknown := List.find?_some hfind
    constructor
    · intro h
      cases h
    · intro h
      have hknown := h name hmem
      simp [hknown] at hunknown

/-- A text that the gate lets pass names known variables only. -/
theorem validatedTexts_known {title body : Option Text} {stored : TemplateText}
    (h : validatedTexts event channel title body = .ok stored) :
    (∀ name ∈ holes (pieces stored.title), Known event name) ∧
      ∀ name ∈ holes (pieces stored.body), Known event name := by
  unfold validatedTexts at h
  split at h
  next title body =>
    obtain ⟨_, h⟩ := ensure_bind_ok.mp h
    obtain ⟨_, h⟩ := ensure_bind_ok.mp h
    obtain ⟨_, h⟩ := ensure_bind_ok.mp h
    obtain ⟨_, hgate, h⟩ := bind_ok.mp h
    cases h
    cases hvalid : validateAdminTemplate event channel (strip title) (strip body) with
    | error e =>
      rw [hvalid] at hgate
      cases hgate
    | ok u =>
      unfold validateAdminTemplate at hvalid
      obtain ⟨_, _, hvalid⟩ := bind_ok.mp hvalid
      obtain ⟨_, _, hvalid⟩ := bind_ok.mp hvalid
      obtain ⟨_, htitle, hbody⟩ := bind_ok.mp hvalid
      exact ⟨rejectUnknown_ok.mp htitle, rejectUnknown_ok.mp hbody⟩
  next => cases h

end Accepted

end CampusQuest.Notifications
