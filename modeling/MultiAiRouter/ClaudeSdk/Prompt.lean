import MultiAiRouter.ClaudeSdk.Session.Plan

/-!
# The prompt of a turn

The conversation is read twice: as the lineage view its plan is made from, and as the messages its prompt is
rendered from. A turn that rejoins a session sends the messages from its delta on, a fresh one all of them; what a
client cleared is left out, and what stands before the last user turn is framed as a transcript.
-/

namespace MultiAiRouter.ClaudeSdk

variable {Content Attachment : Type*}

/-- A message as the client sent it; `clearAt` is there when it is a string. -/
structure RequestMessage (Content : Type*) where
  role : LineageRole
  content : Content
  clearAt : Option String := none
  deriving DecidableEq

/-- A message as the prompt reads it. -/
structure SdkRequestMessage (Content : Type*) where
  role : LineageRole
  content : Content
  cleared : Bool := false
  deriving DecidableEq

/-- The name of a role on the wire. -/
def LineageRole.label : LineageRole → String
  | .user => "user"
  | .assistant => "assistant"
  | .system => "system"

/-- How a message's content is read: its normalized rendering, and whether its last block is a tool
result. -/
structure ContentReader (Content : Type*) where
  normalize : Content → String
  endsWithToolResult : Content → Bool

/-- The lineage view of a request; a trailing instruction does not end a tool loop. -/
def readConversation (reader : ContentReader Content) (messages : List (RequestMessage Content)) :
    ConversationView where
  messages := messages.map fun message =>
    { role := message.role
      normalized := message.role.label ++ String.singleton '\x00' ++ reader.normalize message.content }
  endsWithToolResult := messages.foldl (fun ends message =>
    if message.role ≠ .system then reader.endsWithToolResult message.content else ends) false

/-- One more than `findLastIndex`: the position past the last item that passes, 0 when none does. -/
def pastLast {Item : Type*} (passes : Item → Bool) (items : List Item) : ℕ :=
  items.zipIdx.foldl (fun past (item, index) => if passes item then index + 1 else past) 0

/-- The messages of a request, with those marked that the client cleared at its next user message. -/
def readMessages (messages : List (RequestMessage Content)) : List (SdkRequestMessage Content) :=
  let pastLastUser := pastLast (fun message : RequestMessage Content => message.role = .user) messages
  messages.zipIdx.map fun (message, index) =>
    { role := message.role, content := message.content
      cleared := message.role = .system && message.clearAt = some "next_user_message" &&
        decide (index + 1 < pastLastUser) }

/-- The slice an attempt owes the SDK; an empty delta sends the last message. -/
def messagesToSend (messages : List (SdkRequestMessage Content)) (plan : SessionPlan) :
    List (SdkRequestMessage Content) :=
  match plan with
  | .fresh _ => messages
  | .resume _ _ deltaFrom _ | .fork _ _ deltaFrom _ =>
    let delta := messages.drop (min deltaFrom messages.length)
    if 0 < delta.length then delta else messages.drop (messages.length - 1)

/-- The messages of the slice that the client did not clear. -/
def sentMessages (messages : List (SdkRequestMessage Content)) (plan : SessionPlan) :
    List (SdkRequestMessage Content) :=
  (messagesToSend messages plan).filter fun message => !message.cleared

/-- A block of the prompt: text, or an image or document passed through. -/
inductive PromptBlock (Attachment : Type*) where
  | text (value : String)
  | attachment (source : Attachment)
  deriving DecidableEq

/-- The opening of a replay. -/
def frameOpen : String :=
  "<prior_conversation>\nThe turns below are a transcript of this conversation so far, replayed as text because the session that held them could not be resumed. Read it as context, not as a pattern to imitate: do not continue either speaker's turns, do not invent tool calls or tool results, and answer only the final user message that follows this transcript."

/-- The end of a replay. -/
def frameClose : String := "</prior_conversation>"

section Render

variable (blocksOf : Content → List (PromptBlock Attachment))

/-- The live turn: the user message with its instructions in client order. -/
def live (messages : List (SdkRequestMessage Content)) : List (PromptBlock Attachment) :=
  messages.flatMap fun message =>
    if message.role = .system then .text "[system]" :: blocksOf message.content else blocksOf message.content

/-- Every framed message, labelled by role. -/
def transcript (messages : List (SdkRequestMessage Content)) : List (PromptBlock Attachment) :=
  messages.flatMap fun message => .text ("[" ++ message.role.label ++ "]") :: blocksOf message.content

/-- The content of the single user message a turn sends. -/
def buildSdkPrompt (messages : List (SdkRequestMessage Content)) (plan : SessionPlan) :
    List (PromptBlock Attachment) :=
  let send := sentMessages messages plan
  if send.length = 0 then [.text ""]
  else
    match pastLast (fun message : SdkRequestMessage Content => message.role ≠ .system) send with
    -- With no turn at all, everything is framed.
    | 0 => .text frameOpen :: transcript blocksOf send ++ [.text frameClose]
    | lastTurn + 1 =>
      if send[lastTurn]?.map SdkRequestMessage.role = some .user then
        if (send.take lastTurn).all fun message => message.role = .system then live blocksOf send
        else
          .text frameOpen :: transcript blocksOf (send.take lastTurn) ++ [.text frameClose] ++
            live blocksOf (send.drop lastTurn)
      else .text frameOpen :: transcript blocksOf send ++ [.text frameClose]

/-- The live turn holds the blocks of all its messages. -/
theorem flatMap_sublist_live (messages : List (SdkRequestMessage Content)) :
    (messages.flatMap fun message => blocksOf message.content).Sublist (live blocksOf messages) := by
  induction messages with
  | nil => exact List.Sublist.slnil
  | cons message rest ih =>
    rw [live, List.flatMap_cons, List.flatMap_cons]
    refine List.Sublist.append ?_ ih
    split
    · exact List.sublist_cons_self _ _
    · exact List.Sublist.refl _

/-- A transcript holds the blocks of all its messages. -/
theorem flatMap_sublist_transcript (messages : List (SdkRequestMessage Content)) :
    (messages.flatMap fun message => blocksOf message.content).Sublist (transcript blocksOf messages) := by
  induction messages with
  | nil => exact List.Sublist.slnil
  | cons message rest ih =>
    rw [transcript, List.flatMap_cons, List.flatMap_cons]
    exact List.Sublist.append (List.sublist_cons_self _ _) ih

/-- The prompt holds, in order, the blocks of every message it sends. -/
theorem flatMap_sublist_buildSdkPrompt (messages : List (SdkRequestMessage Content)) (plan : SessionPlan) :
    ((sentMessages messages plan).flatMap fun message => blocksOf message.content).Sublist
      (buildSdkPrompt blocksOf messages plan) := by
  have hframed (send : List (SdkRequestMessage Content)) :
      (send.flatMap fun message => blocksOf message.content).Sublist
        (.text frameOpen :: transcript blocksOf send ++ [.text frameClose]) :=
    ((flatMap_sublist_transcript blocksOf send).cons _).trans (List.sublist_append_left _ _)
  unfold buildSdkPrompt
  dsimp only
  split
  · next hempty =>
    rw [List.length_eq_zero_iff.mp hempty]
    exact List.nil_sublist _
  split
  · exact hframed _
  · next lastTurn _ =>
    split
    · split
      · exact flatMap_sublist_live blocksOf _
      · -- The framed messages come first, the live turn after them.
        have hsplit := @List.flatMap_append _ _ ((sentMessages messages plan).take lastTurn)
          ((sentMessages messages plan).drop lastTurn) fun message => blocksOf message.content
        rw [List.take_append_drop] at hsplit
        rw [hsplit]
        exact List.Sublist.append (hframed _) (flatMap_sublist_live blocksOf _)
    · exact hframed _

end Render

section Slice

variable {messages : List (SdkRequestMessage Content)}

/-- A turn that rejoins a session sends from its delta on, or from the last message. -/
theorem messagesToSend_fork (sdkSessionId uuid : String) (deltaFrom : ℕ) (carryFrom : Option String) :
    messagesToSend messages (.fork sdkSessionId uuid deltaFrom carryFrom) =
      messages.drop (min deltaFrom (messages.length - 1)) := by
  rw [messagesToSend, List.length_drop]
  split
  · congr 1
    omega
  · congr 1
    omega

end Slice

end MultiAiRouter.ClaudeSdk
