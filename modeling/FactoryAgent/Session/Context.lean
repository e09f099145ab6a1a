import FactoryAgent.Persistence.Pages
import FactoryAgent.Scope.Recipes

/-!
# The conversation that a model call sees

`_session_history` of `application/session/history.py` reads the interactions of a session page by page and makes a turn
of each that has ended; `compact_history` of `application/context.py` keeps the newest turns of a conversation that fit
into a number of characters. What a call sees is the longest end of the conversation that fits, or a front of the newest
turn where not even that fits (`Fitted`). It is drawn from the questions of the session alone: the texts that stand for
the answers are those of `_history_turn`, without a row of a result (`sessionPrompt_spec`).
-/

/-! ## Turns -/

/-- **A turn of a conversation**, without rows and without scopes. -/
structure ConversationTurn where
  userText : String
  assistantText : String
  status : InteractionStatus
  capabilityId : Option String
  resultRowCount : Option Nat
  deriving DecidableEq, Repr

/-- A message for a model. -/
structure ModelMessage where
  role : MessageRole
  content : String
  deriving DecidableEq, Repr

/-- The characters of a message. -/
def ModelMessage.chars (message : ModelMessage) : Nat :=
  message.content.toList.length

namespace Conversation

/-- `_UNFINISHED_SUMMARY` -/
def unfinishedSummary : String :=
  "上一轮请求未完成。"

/-- **`summarize_assistant_reply`**: where a turn has a result, the number of its rows. -/
def summarizeAssistantReply (turn : ConversationTurn) : String :=
  if turn.status = .failed ∨ turn.status = .cancelled then unfinishedSummary
  else
    match turn.resultRowCount with
    | some count =>
      let capability := (turn.capabilityId.filter (· ≠ "")).getD "查询"
      "返回了 " ++ capability ++ " 的结果表（" ++ toString count ++ " 行）。"
    | none => turn.assistantText

/-- The question and the answer of a turn. -/
abbrev Pair : Type :=
  ModelMessage × ModelMessage

/-- `turns[-max_turns:]`, which is all of them where the number is zero. -/
def lastTurns (maxTurns : Nat) (turns : List ConversationTurn) : List ConversationTurn :=
  if maxTurns = 0 then turns else turns.drop (turns.length - maxTurns)

/-- The messages of a turn, where its question is not blank. -/
def pairOf? (turn : ConversationTurn) : Option Pair :=
  let question := Text.strip turn.userText
  if question = "" then none
  else some (⟨.user, question⟩, ⟨.assistant, summarizeAssistantReply turn⟩)

/-- The messages of pairs. -/
def messagesOf (pairs : List Pair) : List ModelMessage :=
  pairs.flatMap fun pair => [pair.1, pair.2]

/-- The characters of messages. -/
def charsOf (messages : List ModelMessage) : Nat :=
  (messages.map ModelMessage.chars).sum

/-- `_pair_chars` -/
def pairChars (pairs : List Pair) : Nat :=
  charsOf (messagesOf pairs)

/-- `content[:n]` -/
def cut (message : ModelMessage) (n : Nat) : ModelMessage :=
  { message with content := Text.prefixOf n message.content }

/-- **`_truncate_pair`**: half of the characters are for the question, one at least, and what it leaves is for the
answer. -/
def truncatePair (pair : Pair) (maxChars : Nat) : List ModelMessage :=
  let question := cut pair.1 (max 1 (maxChars / 2))
  [question, cut pair.2 (maxChars - question.chars)]

/-- The loop of `compact_history`: the oldest pair is dropped until the rest fits. -/
def fit (maxChars : Nat) : List Pair → List ModelMessage
  | [] => []
  | pair :: rest =>
    if maxChars < pairChars (pair :: rest) then
      if rest = [] then truncatePair pair maxChars else fit maxChars rest
    else messagesOf (pair :: rest)

/-- **`compact_history`** -/
def compactHistory (maxTurns maxChars : Nat) (turns : List ConversationTurn) : List ModelMessage :=
  fit maxChars ((lastTurns maxTurns turns).filterMap pairOf?)

/-! ## What fits -/

/-- **The longest end that fits**: the messages of it, or of the newest pair alone a front of each where not even that
pair fits. -/
inductive Fitted (maxChars : Nat) (pairs : List Pair) : List ModelMessage → Prop
  | none (h : pairs = []) : Fitted maxChars pairs []
  | whole (dropped kept : List Pair) (hsplit : pairs = dropped ++ kept) (hkept : kept ≠ [])
      (hfits : pairChars kept ≤ maxChars) (hlongest : ∀ pair ∈ dropped.getLast?, maxChars < pairChars (pair :: kept)) :
      Fitted maxChars pairs (messagesOf kept)
  | front (dropped : List Pair) (pair : Pair) (hsplit : pairs = dropped ++ [pair])
      (hover : maxChars < pairChars [pair]) : Fitted maxChars pairs (truncatePair pair maxChars)

/-- **The loop keeps the longest end that fits.** -/
theorem fitted_fit (maxChars : Nat) (pairs : List Pair) : Fitted maxChars pairs (fit maxChars pairs) := by
  induction pairs with
  | nil => exact .none rfl
  | cons pair rest ih =>
    rw [fit]
    by_cases hover : maxChars < pairChars (pair :: rest)
    · rw [if_pos hover]
      by_cases hrest : rest = []
      · subst hrest
        rw [if_pos rfl]
        exact .front [] pair rfl hover
      · rw [if_neg hrest]
        generalize fit maxChars rest = messages at ih
        cases ih with
        | none h => exact absurd h hrest
        | whole dropped kept hsplit hkept hfits hlongest =>
          refine .whole (pair :: dropped) kept (by rw [hsplit, List.cons_append]) hkept hfits fun last hlast => ?_
          cases dropped with
          | nil =>
            rw [List.nil_append] at hsplit
            rw [List.getLast?_singleton, Option.mem_some_iff] at hlast
            rwa [← hlast, ← hsplit]
          | cons first dropped =>
            rw [List.getLast?_cons_cons] at hlast
            exact hlongest last hlast
        | front dropped last hsplit hlast =>
          exact .front (pair :: dropped) last (by rw [hsplit, List.cons_append]) hlast
    · rw [if_neg hover]
      exact .whole [] (pair :: rest) rfl (List.cons_ne_nil _ _) (Nat.le_of_not_lt hover) fun last hlast => by
        cases hlast

/-- A cut text has no more characters than it is cut to. -/
theorem chars_cut_le (message : ModelMessage) (n : Nat) : (cut message n).chars ≤ n := by
  rw [ModelMessage.chars, cut, Text.prefixOf, String.toList_ofList]
  exact List.length_take_le _ _

/-- **What is sent is within the bound**, where the bound is at least one character. -/
theorem Fitted.chars_le {maxChars : Nat} {pairs : List Pair} {messages : List ModelMessage} (hchars : 1 ≤ maxChars)
    (h : Fitted maxChars pairs messages) : charsOf messages ≤ maxChars := by
  cases h with
  | none => exact Nat.zero_le _
  | whole dropped kept _ _ hfits => exact hfits
  | front dropped pair =>
    have hquestion := chars_cut_le pair.1 (max 1 (maxChars / 2))
    have hanswer := chars_cut_le pair.2 (maxChars - (cut pair.1 (max 1 (maxChars / 2))).chars)
    have hhalf : max 1 (maxChars / 2) ≤ maxChars := by omega
    simp only [truncatePair, charsOf, List.map_cons, List.map_nil, List.sum_cons, List.sum_nil]
    omega

/-- A front of a message that is sent in place of it. -/
def FrontOf (message sent : ModelMessage) : Prop :=
  sent.role = message.role ∧ sent.content.toList <+: message.content.toList

/-- Cutting a message leaves a front of it. -/
theorem frontOf_cut (message : ModelMessage) (n : Nat) : FrontOf message (cut message n) := by
  refine ⟨rfl, ?_⟩
  rw [cut, Text.prefixOf, String.toList_ofList]
  exact List.take_prefix _ _

/-- **What is sent is of the pairs**, a message or a front of it. -/
theorem Fitted.mem_pairs {maxChars : Nat} {pairs : List Pair} {messages : List ModelMessage}
    (h : Fitted maxChars pairs messages) {sent : ModelMessage} (hsent : sent ∈ messages) :
    ∃ pair ∈ pairs, FrontOf pair.1 sent ∨ FrontOf pair.2 sent := by
  cases h with
  | none => exact absurd hsent List.not_mem_nil
  | whole dropped kept hsplit =>
    obtain ⟨pair, hpair, hmem⟩ := List.mem_flatMap.mp hsent
    refine ⟨pair, hsplit ▸ List.mem_append_right _ hpair, ?_⟩
    rcases List.mem_pair.mp hmem with rfl | rfl
    · exact .inl ⟨rfl, List.prefix_rfl⟩
    · exact .inr ⟨rfl, List.prefix_rfl⟩
  | front dropped pair hsplit =>
    refine ⟨pair, hsplit ▸ List.mem_append_right _ (List.mem_singleton_self pair), ?_⟩
    rcases List.mem_pair.mp hsent with rfl | rfl
    · exact .inl (frontOf_cut pair.1 _)
    · exact .inr (frontOf_cut pair.2 _)

/-! ## The turns of a session -/

/-- A row of `agent_interaction` as it is read. -/
structure InteractionRow extends InteractionRecord where
  readAt : Timestamp createdAt
  deriving DecidableEq

variable (collation : Collation)

/-- The key of an interaction: its instant, then its identifier. -/
def interactionKey (row : InteractionRow) : collation.HistoryKey :=
  toLex (row.createdAt, collation.sortKey row.interactionId)

/-- The interactions of a session of an owner. -/
def sessionInteractions (rows : List InteractionRow) (tenantId userId sessionId : String) : List InteractionRow :=
  rows.filter fun row => row.tenantId = tenantId ∧ row.userId = userId ∧ row.sessionId = sessionId

/-- `select_interactions`: the rows after the cursor, oldest first, one more than the page holds. -/
def selectInteractions (rows : List InteractionRow) (tenantId userId sessionId : String) (limit : Nat)
    (cursor : Option (DateTime × String)) : List InteractionRow :=
  Keyset.select (interactionKey collation) limit (cursor.map (historyCursorKey collation))
    (sessionInteractions rows tenantId userId sessionId)

/-- The cursor after an interaction. -/
def interactionCursor (row : InteractionRow) : String :=
  encodeCursor row.readAt.value row.interactionId

/-- **`list_interactions`** -/
def listInteractions (rows : List InteractionRow) (tenantId userId sessionId : String) (limit : Nat)
    (cursor : Option String) : Except CursorError (Keyset.Page InteractionRow) :=
  (Keyset.decoded decodeCursor cursor).map fun after =>
    Keyset.page limit interactionCursor (selectInteractions collation rows tenantId userId sessionId limit after)

/-- The cursor after an interaction is read back as its key. -/
theorem decodeCursor_interactionCursor (row : InteractionRow) :
    interactionCursor row ≠ ""
      ∧ (decodeCursor (interactionCursor row)).map (historyCursorKey collation)
        = .ok (interactionKey collation row) := by
  refine ⟨encodePayload_ne_empty (exact_cursor _ _), ?_⟩
  rw [interactionCursor, decodeCursor_encodeCursor]
  show Except.ok (toLex (row.readAt.value.instant, _)) = _
  rw [row.readAt.instant_eq]
  rfl

/-- `fr_id_for`: the product identifier of a recipe, or the identifier itself. -/
def frIdFor (recipeId : String) : String :=
  ((frByRecipe.lookup recipeId).map Capability.value).getD recipeId

/-- The text that stands for the answer of a turn in `_history_turn`. -/
def answerText (capabilityId : Option String) : String :=
  match capabilityId with
  | some capability =>
    if capability = chitchatCapabilityId then "上一轮是闲聊回复。" else "已返回 " ++ frIdFor capability ++ " 查询结果。"
  | none => "上一轮需要补充信息或未能完成。"

/-- **`_history_turn`** -/
def historyTurn (row : InteractionRow) : ConversationTurn where
  userText := Text.strip row.inputText
  assistantText := answerText row.capabilityId
  status := row.status
  capabilityId := row.capabilityId
  resultRowCount := none

/-- The turns of the interactions that have ended, other than the current one. -/
def pastTurns (current : String) (rows : List InteractionRow) : List ConversationTurn :=
  (rows.filter fun row => row.interactionId ≠ current ∧ row.status.isTerminal).map historyTurn

/-- **`_session_history`**, in so many page reads at most. -/
def sessionHistory (rows : List InteractionRow) (tenantId userId sessionId current : String) (pageSize steps : Nat) :
    Option (Except CursorError (List ConversationTurn)) :=
  (Keyset.follow (listInteractions collation rows tenantId userId sessionId pageSize ·) steps none).map fun read =>
    read.map fun pages => pages.flatMap fun page => pastTurns current page.items

/-- The messages of the conversation in a model call: the history of the session, compacted. -/
def sessionPrompt (rows : List InteractionRow) (tenantId userId sessionId current : String)
    (pageSize maxTurns maxChars steps : Nat) : Option (Except CursorError (List ModelMessage)) :=
  (sessionHistory collation rows tenantId userId sessionId current pageSize steps).map fun read =>
    read.map (compactHistory maxTurns maxChars)

/-- The pairs of a session that may be sent, oldest first. -/
def sessionPairs (rows : List InteractionRow) (tenantId userId sessionId current : String) (maxTurns : Nat) :
    List Pair :=
  (lastTurns maxTurns (pastTurns current (Keyset.ordered (interactionKey collation)
    (sessionInteractions rows tenantId userId sessionId)))).filterMap pairOf?

/-- The interactions that a call may see something of. -/
structure Visible (tenantId userId sessionId current : String) (row : InteractionRow) : Prop where
  tenant : row.tenantId = tenantId
  user : row.userId = userId
  session : row.sessionId = sessionId
  other : row.interactionId ≠ current
  ended : row.status.isTerminal = true

/-- **What a message may hold of an interaction**: a part of its question, or a front of a text that stands for its
answer. -/
inductive Shows (row : InteractionRow) (sent : ModelMessage) : Prop
  | question (hrole : sent.role = .user) (hpart : sent.content.toList <:+: row.inputText.toList) : Shows row sent
  | answer (hrole : sent.role = .assistant)
      (hfront : sent.content.toList <+: (answerText row.capabilityId).toList
        ∨ sent.content.toList <+: unfinishedSummary.toList) : Shows row sent

theorem mem_lastTurns {maxTurns : Nat} {turns : List ConversationTurn} {turn : ConversationTurn}
    (h : turn ∈ lastTurns maxTurns turns) : turn ∈ turns := by
  rw [lastTurns] at h
  split_ifs at h
  · exact h
  · exact List.mem_of_mem_drop h

/-- What is left of a text is a part of it. -/
theorem strip_part (text : String) : (Text.strip text).toList <:+: text.toList := by
  obtain ⟨lead, trail, hsplit, -, -⟩ := Text.stripped_split text.toList
  rw [Text.strip, String.toList_ofList]
  exact ⟨lead, trail, by rw [List.append_assoc, ← hsplit]⟩

/-- The pair of an interaction shows what it may. -/
theorem shows_pairOf? {row : InteractionRow} {pair : Pair} (h : pairOf? (historyTurn row) = some pair)
    {sent : ModelMessage} (hsent : FrontOf pair.1 sent ∨ FrontOf pair.2 sent) : Shows row sent := by
  rw [pairOf?] at h
  split_ifs at h with hblank
  cases h
  rcases hsent with ⟨hrole, hfront⟩ | ⟨hrole, hfront⟩
  · refine .question hrole (hfront.isInfix.trans ((strip_part _).trans ?_))
    exact strip_part row.inputText
  · refine .answer hrole ?_
    dsimp only at hfront
    rw [summarizeAssistantReply] at hfront
    split_ifs at hfront
    · exact .inr hfront
    · exact .inl hfront

/-- **What a pair of a session shows is visible.** -/
theorem exists_visible {rows : List InteractionRow} {tenantId userId sessionId current : String} {maxTurns : Nat}
    {pair : Pair} (hpair : pair ∈ sessionPairs collation rows tenantId userId sessionId current maxTurns) :
    ∃ row ∈ rows, Visible tenantId userId sessionId current row ∧ pairOf? (historyTurn row) = some pair := by
  obtain ⟨turn, hturn, hsome⟩ := List.mem_filterMap.mp hpair
  obtain ⟨row, hrow, rfl⟩ := List.mem_map.mp (mem_lastTurns hturn)
  obtain ⟨hordered, hpast⟩ := List.mem_filter.mp hrow
  obtain ⟨hmem, howned⟩ := List.mem_filter.mp ((Keyset.ordered_perm _ _).mem_iff.mp hordered)
  rw [decide_eq_true_eq] at hpast howned
  exact ⟨row, hmem, ⟨howned.1, howned.2.1, howned.2.2, hpast.1, hpast.2⟩, hsome⟩

/-- **The history of a session is all of it**, in order. -/
theorem sessionHistory_eq {pageSize : Nat} (hpage : 1 ≤ pageSize) {rows : List InteractionRow}
    (hkeys : (rows.map (interactionKey collation)).Nodup) (tenantId userId sessionId current : String) {steps : Nat}
    (hsteps : rows.length < steps) :
    sessionHistory collation rows tenantId userId sessionId current pageSize steps
      = some (.ok (pastTurns current (Keyset.ordered (interactionKey collation)
          (sessionInteractions rows tenantId userId sessionId)))) := by
  have howned : ((sessionInteractions rows tenantId userId sessionId).map (interactionKey collation)).Nodup :=
    hkeys.sublist (List.filter_sublist.map _)
  obtain ⟨pages, hfollow, hflat⟩ := Keyset.follow_of_stands hpage
    (fun _ _ hstands => Keyset.list_of_stands howned
      (fun row _ => decodeCursor_interactionCursor collation row) hstands) Keyset.Stands.start
  have hlength : (Keyset.ordered (interactionKey collation)
      (sessionInteractions rows tenantId userId sessionId)).length < steps := by
    rw [(Keyset.ordered_perm _ _).length_eq]
    exact lt_of_le_of_lt (List.length_filter_le _ _) hsteps
  have hread : Keyset.follow (listInteractions collation rows tenantId userId sessionId pageSize ·) steps none
      = some (.ok pages) := hfollow steps hlength
  rw [sessionHistory, hread, ← hflat]
  simp only [Option.map_some, Except.map, pastTurns, List.filter_flatMap, List.map_flatMap]

/-- **The conversation that a call sees.** With distinct keys, whatever the size of the pages is, the history is read
and compacted to the longest end of the session that fits, or to a front of its newest turn; it has no more characters
than it may, and all of it shows ended interactions of the session other than the current one: questions, and texts that
stand for answers. -/
theorem sessionPrompt_spec (maxTurns : Nat) {pageSize maxChars : Nat} (hpage : 1 ≤ pageSize) (hchars : 1 ≤ maxChars)
    {rows : List InteractionRow} (hkeys : (rows.map (interactionKey collation)).Nodup)
    (tenantId userId sessionId current : String) :
    ∃ messages, (∀ steps, rows.length < steps →
        sessionPrompt collation rows tenantId userId sessionId current pageSize maxTurns maxChars steps
          = some (.ok messages))
      ∧ Fitted maxChars (sessionPairs collation rows tenantId userId sessionId current maxTurns) messages
      ∧ charsOf messages ≤ maxChars
      ∧ ∀ sent ∈ messages, ∃ row ∈ rows, Visible tenantId userId sessionId current row ∧ Shows row sent := by
  have hfitted := fitted_fit maxChars (sessionPairs collation rows tenantId userId sessionId current maxTurns)
  refine ⟨_, fun steps hsteps => ?_, hfitted, hfitted.chars_le hchars, fun sent hsent => ?_⟩
  · rw [sessionPrompt, sessionHistory_eq collation hpage hkeys tenantId userId sessionId current hsteps]
    rfl
  · obtain ⟨pair, hpair, hfront⟩ := hfitted.mem_pairs hsent
    obtain ⟨row, hrow, hvisible, hsome⟩ := exists_visible collation hpair
    exact ⟨row, hrow, hvisible, shows_pairOf? hsome hfront⟩

/-- A question of a session. -/
def asked (interactionId question : String) (status : InteractionStatus) (createdAt : DateTime)
    (aware : createdAt.offset.isSome) : InteractionRow where
  interactionId := interactionId
  sessionId := "sess_1"
  tenantId := "t1"
  userId := "u1"
  status := status
  state := .answered
  inputText := question
  capabilityId := some "fr001_personal_output"
  clarificationRounds := 0
  lastEventSequence := 9
  errorCategory := none
  createdAt := createdAt.instant
  updatedAt := createdAt.instant
  completedAt := none
  readAt := ⟨createdAt, aware, rfl⟩

/-- Two questions of a session, the second of which is being answered. -/
theorem sessionPrompt_spec_followUp :
    let rows := [asked "int_2" "那上周呢？" .running quarterPast rfl, asked "int_1" "本周产量" .completed quarterPast rfl]
    ∃ messages, (∀ steps, 2 < steps →
        sessionPrompt .codePoints rows "t1" "u1" "sess_1" "int_2" 50 8 8192 steps = some (.ok messages))
      ∧ charsOf messages ≤ 8192 := by
  intro rows
  have hkeys : (rows.map (interactionKey .codePoints)).Nodup := by
    refine List.nodup_cons.mpr ⟨fun h => ?_, List.nodup_singleton _⟩
    have hkey := List.mem_singleton.mp h
    have hid : "int_2" = "int_1" := congrArg (fun key => (ofLex key).2) hkey
    exact absurd hid (by decide)
  have hpage : 1 ≤ 50 := by decide
  have hmax : 1 ≤ 8192 := by decide
  obtain ⟨messages, hread, -, hchars, -⟩ := sessionPrompt_spec .codePoints 8 hpage hmax hkeys "t1" "u1" "sess_1" "int_2"
  exact ⟨messages, hread, hchars⟩

end Conversation
