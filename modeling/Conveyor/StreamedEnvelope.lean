import Conveyor.Library.JsonCuts
import Conveyor.TranscriptRedaction

/-!
# The envelope of a stream of events

`extract_terminal_envelope` cuts the stream, and the message that it takes, where `str.splitlines`
cuts: at more characters than the line feeds between the events. A character of these that stands
in a string takes the event out of the stream. `envelope_of_last_iff` says when the envelope is
still the one of the last message.
-/

namespace Conveyor

open Library JsonText

variable {D : Decoding} {numbers : Json → Json → Bool} {corroborated : Option Fields}

/-! ### The messages of a stream -/

/-- Each event stands on a line of its own, in the text of some serializer. -/
structure Streamed (D : Decoding) (lines : List (List Char)) (events : List Fields) : Prop where
  texts : List.Forall₂ (fun line event => Json.loads D line = .ok (.obj event)) lines events
  single : ∀ line ∈ lines, '\n' ∉ line

theorem Streamed.loads_line {lines : List (List Char)} {events : List Fields}
    (h : Streamed D lines events) {line : List Char} (hline : line ∈ lines) :
    ∃ event, Json.loads D line = .ok (.obj event) := by
  obtain ⟨htexts, -⟩ := h
  induction htexts with
  | nil => cases hline
  | cons hfirst _ ih =>
      rcases List.mem_cons.mp hline with rfl | hrest
      · exact ⟨_, hfirst⟩
      · exact ih hrest

/-- The output, with a line feed behind every event. -/
def streamOutput (lines : List (List Char)) : String :=
  String.ofList (lines.flatMap fun line => line ++ ['\n'])

/-- The messages of the events. -/
def messagesOf (events : List Fields) : List String :=
  events.filterMap fun event => agentMessage (.obj event)

/-- The text is an event with this message. -/
def HasMessage (D : Decoding) (piece : List Char) (message : String) : Prop :=
  ∃ event, Json.loads D piece = .ok event ∧ agentMessage event = some message

/-- The last piece with a message has this one. -/
def LastMessage (D : Decoding) (pieces : List (List Char)) (message : String) : Prop :=
  ∃ before piece after, pieces = before ++ piece :: after ∧ HasMessage D piece message ∧
    ∀ later ∈ after, ∀ other, ¬HasMessage D later other

/-- No piece has an integer that the interpreter does not convert. -/
def Converts (D : Decoding) (pieces : List (List Char)) : Prop :=
  ∀ piece ∈ pieces, Json.loads D piece ≠ .error .tooManyDigits

/-- What `str.splitlines` makes of the lines of a stream. -/
def piecesOfLines (lines : List (List Char)) : List (List Char) :=
  lines.flatMap fun line => splitlines (line ++ ['\n'])

/-- `assistant_messages[-1]`, where the call comes to it. -/
def messageRead (D : Decoding) (output : String) : Option String :=
  match assistantMessages D (splitlines output.toList) with
  | .ok messages => messages.getLast?
  | .error _ => none

theorem splitlines_streamOutput (lines : List (List Char)) :
    splitlines (streamOutput lines).toList = piecesOfLines lines := by
  rw [streamOutput, String.toList_ofList]
  induction lines with
  | nil => rfl
  | cons line lines ih =>
      rw [List.flatMap_cons, List.append_assoc, List.singleton_append, splitlines,
        splitlinesFrom_line, ih]
      rfl

/-- The message of a piece. -/
def pieceMessage (D : Decoding) (piece : List Char) : Option String :=
  match Json.loads D piece with
  | .ok event => agentMessage event
  | .error _ => none

theorem pieceMessage_of_loads {piece : List Char} {event : Json}
    (h : Json.loads D piece = .ok event) : pieceMessage D piece = agentMessage event := by
  rw [pieceMessage, h]

theorem pieceMessage_eq_some {piece : List Char} {message : String} :
    pieceMessage D piece = some message ↔ HasMessage D piece message := by
  unfold pieceMessage HasMessage
  split
  · rename_i event hloads
    simp [hloads]
  · rename_i refusal hloads
    simp [hloads]

theorem assistantMessages_eq_ok {pieces : List (List Char)} {messages : List String} :
    assistantMessages D pieces = .ok messages ↔
      Converts D pieces ∧ pieces.filterMap (pieceMessage D) = messages := by
  induction pieces generalizing messages with
  | nil => simp [assistantMessages, Converts]
  | cons piece rest ih =>
      have hconverts : Converts D (piece :: rest) ↔
          Json.loads D piece ≠ .error .tooManyDigits ∧ Converts D rest := List.forall_mem_cons
      rw [assistantMessages, hconverts]
      split
      · rename_i hloads
        rw [ih, hloads, List.filterMap_cons_none (by rw [pieceMessage, hloads])]
        simp
      · rename_i hloads
        simp [hloads]
      · rename_i event hloads
        have hmessages : (piece :: rest).filterMap (pieceMessage D) =
            (agentMessage event).toList ++ rest.filterMap (pieceMessage D) := by
          rw [List.filterMap_cons, pieceMessage_of_loads hloads]
          cases agentMessage event <;> rfl
        rw [hloads, hmessages]
        constructor
        · intro h
          obtain ⟨others, hothers, h⟩ := bind_eq_ok.mp h
          cases h
          obtain ⟨hrest, rfl⟩ := ih.mp hothers
          exact ⟨⟨fun hrefused => (by cases hrefused), hrest⟩, rfl⟩
        · rintro ⟨⟨-, hrest⟩, rfl⟩
          exact bind_eq_ok.mpr ⟨_, ih.mpr ⟨hrest, rfl⟩, rfl⟩

/-- The last message of the pieces is the last that they have in order. -/
theorem lastMessage_iff {pieces : List (List Char)} {message : String} :
    LastMessage D pieces message ↔ (pieces.filterMap (pieceMessage D)).getLast? = some message := by
  rw [List.getLast?_filterMap, List.findSome?_eq_some_iff]
  constructor
  · rintro ⟨before, piece, after, rfl, hpiece, hafter⟩
    refine ⟨after.reverse, piece, before.reverse, by simp, pieceMessage_eq_some.mpr hpiece,
      fun later hlater => ?_⟩
    by_contra hsome
    obtain ⟨other, hother⟩ := Option.ne_none_iff_exists'.mp hsome
    exact hafter later (List.mem_reverse.mp hlater) other (pieceMessage_eq_some.mp hother)
  · rintro ⟨after, piece, before, heq, hpiece, hafter⟩
    refine ⟨before.reverse, piece, after.reverse, ?_, pieceMessage_eq_some.mp hpiece,
      fun later hlater other hother => ?_⟩
    · rw [← List.reverse_reverse pieces, heq]
      simp
    · have hnone := hafter later (List.mem_reverse.mp hlater)
      rw [pieceMessage_eq_some.mpr hother] at hnone
      cases hnone

theorem messageRead_eq_some {output message : String} :
    messageRead D output = some message ↔
      Converts D (splitlines output.toList) ∧ LastMessage D (splitlines output.toList) message := by
  rw [messageRead, lastMessage_iff]
  split
  · rename_i messages hmessages
    obtain ⟨hconverts, rfl⟩ := assistantMessages_eq_ok.mp hmessages
    rw [and_iff_right hconverts]
  · rename_i failure hfailure
    refine ⟨nofun, fun h => ?_⟩
    rw [assistantMessages_eq_ok.mpr ⟨h.1, rfl⟩] at hfailure
    cases hfailure

/-! ### The marker line of a message -/

/-- The lines end in the only one with the marker, apart from blank ones, and its object is an
    envelope. -/
def EndsMarked (D : Decoding) (numbers : Json → Json → Bool) (corroborated : Option Fields)
    (lines : List (List Char)) (envelope : SessionResultEnvelope) : Prop :=
  ∃ before text blanks object, lines = before ++ (TERMINAL_ENVELOPE_MARKER ++ text) :: blanks ∧
    (∀ line ∈ before, TERMINAL_ENVELOPE_MARKER.isPrefixOf line = false) ∧
    (∀ line ∈ blanks, ∀ c ∈ line, Platform.isSpace c = true) ∧
    Json.loads D text = .ok (.obj object) ∧ envelopeOf numbers corroborated object = .ok envelope

theorem markedObject_eq_ok {message : List Char} {object : Fields} :
    markedObject D message = .ok object ↔ ∃ before text blanks,
      splitlines message = before ++ (TERMINAL_ENVELOPE_MARKER ++ text) :: blanks ∧
      (∀ line ∈ before, TERMINAL_ENVELOPE_MARKER.isPrefixOf line = false) ∧
      (∀ line ∈ blanks, ∀ c ∈ line, Platform.isSpace c = true) ∧
      Json.loads D text = .ok (.obj object) := by
  constructor
  · intro h
    rw [markedObject, require_bind_eq_ok] at h
    obtain ⟨hone, h⟩ := h
    rw [require_bind_eq_ok] at h
    obtain ⟨hlast, h⟩ := h
    obtain ⟨line, hline⟩ := List.length_eq_one_iff.mp hone
    obtain ⟨hmem, hmarked⟩ := List.mem_filter.mp (hline ▸ List.mem_singleton_self line)
    obtain ⟨text, rfl⟩ := List.isPrefixOf_iff_prefix.mp hmarked
    rw [hline, List.headD_cons, List.drop_left] at h
    obtain ⟨before, blanks, heq⟩ := List.append_of_mem hmem
    rw [heq, List.filter_append, List.filter_cons_of_pos hmarked] at hline
    obtain ⟨hbefore, hblanks⟩ : before.filter TERMINAL_ENVELOPE_MARKER.isPrefixOf = [] ∧
        blanks.filter TERMINAL_ENVELOPE_MARKER.isPrefixOf = [] := by
      have hlength := congrArg List.length hline
      simp only [List.length_append, List.length_cons, List.length_nil] at hlength
      exact ⟨List.length_eq_zero_iff.mp (by omega), List.length_eq_zero_iff.mp (by omega)⟩
    refine ⟨before, text, blanks, heq, fun other hother => ?_, fun other hother c hc => ?_, ?_⟩
    · exact Bool.eq_false_iff.mpr (List.filter_eq_nil_iff.mp hbefore other hother)
    · -- the last line that is not blank would stand behind the marker, and have none
      by_contra hvisible
      have hne : blanks.filter (fun line => line.any fun c => !Platform.isSpace c) ≠ [] := by
        refine List.ne_nil_of_mem (List.mem_filter.mpr ⟨hother, List.any_eq_true.mpr ⟨c, hc, ?_⟩⟩)
        simpa using hvisible
      have hmarkedLine : (TERMINAL_ENVELOPE_MARKER ++ text).any
          (fun c => !Platform.isSpace c) = true := by
        rw [List.any_append, Bool.or_eq_true]
        exact Or.inl (by decide +kernel)
      rw [heq, List.filter_append, List.filter_cons, if_pos hmarkedLine,
        List.getLast?_append_of_ne_nil _ (List.cons_ne_nil _ _),
        List.getLast?_cons_of_ne_nil hne, List.getLast?_eq_some_getLast hne,
        Option.getD_some] at hlast
      exact List.filter_eq_nil_iff.mp hblanks _
        (List.mem_filter.mp (List.getLast_mem hne)).1 hlast
    · split at h
      · cases h
      · cases h
      · rename_i object' hloads
        cases h
        exact hloads
      · cases h
  · rintro ⟨before, text, blanks, heq, hbefore, hblanks, hloads⟩
    exact markedObject_of_marked D heq hbefore hblanks hloads

theorem extractTerminalEnvelope_eq_ok {output : String} {envelope : SessionResultEnvelope} :
    extractTerminalEnvelope D numbers corroborated output = .ok envelope ↔
      ∃ message, messageRead D output = some message ∧
        EndsMarked D numbers corroborated (splitlines message.toList) envelope := by
  have hread : ∀ object, terminalObject D output = .ok object ↔
      ∃ message, messageRead D output = some message ∧
        markedObject D message.toList = .ok object := by
    intro object
    rw [terminalObject, messageRead]
    cases hmessages : assistantMessages D (splitlines output.toList) with
    | error failure =>
        refine ⟨fun hrefused => (by cases hrefused), ?_⟩
        rintro ⟨message, hmessage, -⟩
        cases hmessage
    | ok messages =>
        rw [ok_bind]
        dsimp only
        cases messages.getLast? with
        | none =>
            refine ⟨fun hrefused => (by cases hrefused), ?_⟩
            rintro ⟨message, hmessage, -⟩
            cases hmessage
        | some message => simp
  rw [extractTerminalEnvelope, bind_eq_ok]
  constructor
  · rintro ⟨object, hobject, henvelope⟩
    obtain ⟨message, hmessage, hmarked⟩ := (hread object).mp hobject
    obtain ⟨before, text, blanks, hlines, hbefore, hblanks, hloads⟩ :=
      markedObject_eq_ok.mp hmarked
    exact ⟨message, hmessage, before, text, blanks, object, hlines, hbefore, hblanks, hloads,
      henvelope⟩
  · rintro ⟨message, hmessage, before, text, blanks, object, hlines, hbefore, hblanks, hloads,
      henvelope⟩
    exact ⟨object, (hread object).mpr ⟨message, hmessage,
      markedObject_eq_ok.mpr ⟨before, text, blanks, hlines, hbefore, hblanks, hloads⟩⟩, henvelope⟩

/-! ### The envelope of the last message -/

/-- The law: an envelope that is returned was read from the last message of the events, and one is
    returned where that message ends in its one marker line. -/
structure EnvelopeOfLast (D : Decoding) (numbers : Json → Json → Bool)
    (corroborated : Option Fields) (events : List Fields) (output : String) : Prop where
  last : ∀ envelope, extractTerminalEnvelope D numbers corroborated output = .ok envelope →
    ∃ message, (messagesOf events).getLast? = some message ∧
      messageRead D output = some message ∧
      EndsMarked D numbers corroborated (splitlines message.toList) envelope
  succeeds : ∀ message envelope, (messagesOf events).getLast? = some message →
    EndsMarked D numbers corroborated (message.toList.splitOn '\n') envelope →
      ∃ returned, extractTerminalEnvelope D numbers corroborated output = .ok returned

/-- A last message that ends in its one marker line is the last of the pieces, and ends so among
    its own pieces; and the last of the pieces is no other where it could be taken. -/
structure LastSurvives (D : Decoding) (numbers : Json → Json → Bool)
    (corroborated : Option Fields) (lines : List (List Char)) (events : List Fields) : Prop where
  kept : ∀ message envelope, (messagesOf events).getLast? = some message →
    EndsMarked D numbers corroborated (message.toList.splitOn '\n') envelope →
      Converts D (piecesOfLines lines) ∧ LastMessage D (piecesOfLines lines) message ∧
        ∃ read, EndsMarked D numbers corroborated (splitlines message.toList) read
  unused : ∀ message envelope, Converts D (piecesOfLines lines) →
    LastMessage D (piecesOfLines lines) message →
      EndsMarked D numbers corroborated (splitlines message.toList) envelope →
        (messagesOf events).getLast? = some message

/-- The events whose lines `str.splitlines` does not cut. -/
def unbroken (lines : List (List Char)) (events : List Fields) : List Fields :=
  ((lines.zip events).filter fun pair => pair.1.all fun c => !isLineBoundary c).map Prod.snd

/-- A message is the one of an object with a type. -/
theorem agentMessage_type {event : Json} {message : String}
    (h : agentMessage event = some message) :
    ∃ fields, event = .obj fields ∧ Fields.get fields "type" = .str "item.completed" := by
  unfold agentMessage at h
  split at h
  · rename_i fields
    split_ifs at h with htype
    exact ⟨fields, rfl, htype⟩
  · cases h

/-- An event whose line is cut is lost, the other ones are read as they are. -/
theorem filterMap_pieceMessage {line : List Char} {event : Fields} (hfeed : '\n' ∉ line)
    (hreturn : '\r' ∉ line) (h : Json.loads D line = .ok (.obj event)) :
    (splitlines (line ++ ['\n'])).filterMap (pieceMessage D) =
      if (line.all fun c => !isLineBoundary c) = true then (agentMessage (.obj event)).toList
      else [] := by
  split_ifs with hwhole
  · rw [splitlines_plain (not_isLineBoundary_of_all hwhole), List.filterMap_cons,
      pieceMessage_of_loads h]
    cases agentMessage (.obj event) <;> rfl
  · have hbroken : ∃ c ∈ line, isLineBoundary c = true := by
      simpa using hwhole
    refine List.filterMap_eq_nil_iff.mpr fun piece hpiece => ?_
    -- the key `"type"` has the letter `p`, which only strings have
    have hlacks : LacksLetter D 'p' piece :=
      lacksLetter_of_broken D rfl rfl rfl hfeed hreturn h hbroken piece hpiece
    rw [← Option.not_isSome_iff_eq_none, Option.isSome_iff_exists]
    rintro ⟨message, hmessage⟩
    obtain ⟨other, hloads, hmessage⟩ := pieceMessage_eq_some.mp hmessage
    obtain ⟨fields, rfl, htype⟩ := agentMessage_type hmessage
    have hkey : "type" ∈ Fields.keys fields := by
      by_contra hmissing
      rw [Fields.get, Fields.get?_eq_none_of_not_mem hmissing] at htype
      cases htype
    exact hlacks fields hloads "type" hkey (by decide)

theorem filterMap_piecesOfLines {lines : List (List Char)} {events : List Fields}
    (h : Streamed D lines events) (hreturn : ∀ line ∈ lines, '\r' ∉ line) :
    (piecesOfLines lines).filterMap (pieceMessage D) = messagesOf (unbroken lines events) := by
  obtain ⟨htexts, hsingle⟩ := h
  induction htexts with
  | nil => rfl
  | cons hline htexts ih =>
      rename_i line event lines events
      rw [List.forall_mem_cons] at hsingle hreturn
      rw [piecesOfLines, List.flatMap_cons, List.filterMap_append,
        filterMap_pieceMessage hsingle.1 hreturn.1 hline]
      have hrest := ih hreturn.2 hsingle.2
      rw [piecesOfLines] at hrest
      rw [hrest]
      simp only [unbroken, List.zip_cons_cons, List.filter_cons]
      split_ifs with hwhole
      · rw [List.map_cons, messagesOf, messagesOf, List.filterMap_cons]
        cases agentMessage (.obj event) <;> rfl
      · rfl

/-- The envelope is the one of the last message exactly when that message survives the cuts. Where
    no line has a carriage return, the messages that do are those of the lines without a cut. -/
theorem envelope_of_last_iff {lines : List (List Char)} {events : List Fields}
    (h : Streamed D lines events) :
    (EnvelopeOfLast D numbers corroborated events (streamOutput lines) ↔
      LastSurvives D numbers corroborated lines events) ∧
    ((∀ line ∈ lines, '\r' ∉ line) → ∀ message, LastMessage D (piecesOfLines lines) message ↔
      (messagesOf (unbroken lines events)).getLast? = some message) := by
  have hread : ∀ message, messageRead D (streamOutput lines) = some message ↔
      Converts D (piecesOfLines lines) ∧ LastMessage D (piecesOfLines lines) message := by
    intro message
    rw [messageRead_eq_some, splitlines_streamOutput]
  refine ⟨⟨fun hlaw => ⟨?_, ?_⟩, fun hsurvives => ⟨?_, ?_⟩⟩, fun hreturn message => ?_⟩
  · intro message envelope hlast hmarked
    obtain ⟨returned, hreturned⟩ := hlaw.succeeds message envelope hlast hmarked
    obtain ⟨own, hown, hmessage, hends⟩ := hlaw.last returned hreturned
    cases hlast.symm.trans hown
    obtain ⟨hconverts, hpieces⟩ := (hread message).mp hmessage
    exact ⟨hconverts, hpieces, returned, hends⟩
  · intro message envelope hconverts hpieces hends
    have hmessage := (hread message).mpr ⟨hconverts, hpieces⟩
    obtain ⟨own, hown, hother, -⟩ :=
      hlaw.last envelope (extractTerminalEnvelope_eq_ok.mpr ⟨message, hmessage, hends⟩)
    cases hmessage.symm.trans hother
    exact hown
  · intro envelope hreturned
    obtain ⟨message, hmessage, hends⟩ := extractTerminalEnvelope_eq_ok.mp hreturned
    obtain ⟨hconverts, hpieces⟩ := (hread message).mp hmessage
    exact ⟨message, hsurvives.unused message envelope hconverts hpieces hends, hmessage, hends⟩
  · intro message envelope hlast hmarked
    obtain ⟨hconverts, hpieces, returned, hends⟩ := hsurvives.kept message envelope hlast hmarked
    exact ⟨returned, extractTerminalEnvelope_eq_ok.mpr
      ⟨message, (hread message).mpr ⟨hconverts, hpieces⟩, hends⟩⟩
  · rw [lastMessage_iff, filterMap_piecesOfLines h hreturn]

/-- Where no line is cut, only the cuts of the message itself are left. -/
theorem lastSurvives_of_whole {lines : List (List Char)} {events : List Fields}
    (h : Streamed D lines events)
    (hwhole : ∀ line ∈ lines, ∀ c ∈ line, isLineBoundary c = false)
    (hmarked : ∀ message envelope, (messagesOf events).getLast? = some message →
      EndsMarked D numbers corroborated (message.toList.splitOn '\n') envelope →
        ∃ read, EndsMarked D numbers corroborated (splitlines message.toList) read) :
    LastSurvives D numbers corroborated lines events := by
  have hreturn : ∀ line ∈ lines, '\r' ∉ line := fun line hline hmem =>
    absurd (hwhole line hline _ hmem) (by decide)
  have hpieces : piecesOfLines lines = lines := by
    clear h hmarked hreturn
    induction lines with
    | nil => rfl
    | cons line lines ih =>
        rw [List.forall_mem_cons] at hwhole
        have hrest := ih hwhole.2
        rw [piecesOfLines] at hrest
        rw [piecesOfLines, List.flatMap_cons, splitlines_plain hwhole.1, hrest]
        rfl
  have hevents : unbroken lines events = events := by
    have hzip : ∀ pair ∈ lines.zip events, (pair.1.all fun c => !isLineBoundary c) = true := by
      intro pair hpair
      simpa using hwhole pair.1 (List.of_mem_zip hpair).1
    rw [unbroken, List.filter_eq_self.mpr hzip]
    exact List.map_snd_zip h.texts.length_eq.ge
  have hconverts : Converts D (piecesOfLines lines) := by
    rw [hpieces]
    intro line hline
    obtain ⟨event, hloads⟩ := h.loads_line hline
    rw [hloads]
    exact nofun
  have hlast : ∀ message, LastMessage D (piecesOfLines lines) message ↔
      (messagesOf events).getLast? = some message := by
    intro message
    rw [lastMessage_iff, filterMap_piecesOfLines h hreturn, hevents]
  exact ⟨fun message envelope hown hends =>
    ⟨hconverts, (hlast message).mpr hown, hmarked message envelope hown hends⟩,
    fun message _ _ hown _ => (hlast message).mp hown⟩

/-! ### A separator in the last message -/

/-- The event of a message, as an object. -/
def messageFields (message : List Char) : Fields :=
  [("item", .obj [("text", .str (String.ofList message)), ("type", .str "agent_message")]),
   ("type", .str "item.completed")]

/-- A last message that stands over two lines of its own. -/
def separatedMessage : List Char :=
  "rejected:\u2028see below\n".toList ++ TERMINAL_ENVELOPE_MARKER ++
    Json.dumpsChars (.obj (resultObject "FEATURE_REJECTED"))

theorem streamed_messages {messages : List (List Char)}
    (h : ∀ message ∈ messages, '\n' ∉ messageLine message) :
    Streamed plainDecoding (messages.map messageLine) (messages.map messageFields) := by
  refine ⟨?_, List.forall_mem_map.mpr h⟩
  rw [List.forall₂_map_left_iff, List.forall₂_map_right_iff]
  exact List.forall₂_same.mpr fun message _ => loads_messageLine message

theorem messagesOf_messageFields (messages : List (List Char)) :
    messagesOf (messages.map messageFields) = messages.map String.ofList := by
  rw [messagesOf, List.filterMap_map]
  have hmessage : ∀ message, agentMessage (.obj (messageFields message)) =
      some (String.ofList message) := agentMessage_messageEvent
  simp [hmessage, List.filterMap_eq_map']

theorem accepted_endsMarked : splitlines acceptedMessage = [acceptedMessage] ∧
    ∃ envelope, EndsMarked plainDecoding sameNumber (some correctedMetadata) [acceptedMessage]
      envelope := by
  have hplain : ∀ c ∈ acceptedMessage, isLineBoundary c = false := fun c hc =>
    messages_oneLine.1 c (List.mem_append_left _ hc)
  refine ⟨splitlines_single hplain (List.append_ne_nil_of_left_ne_nil (by decide) _), ?_⟩
  have hok : (envelopeOf sameNumber (some correctedMetadata)
      (resultObject "FEATURE_ACCEPTED")).isOk = true := by decide +kernel
  cases hread : envelopeOf sameNumber (some correctedMetadata) (resultObject "FEATURE_ACCEPTED") with
  | error failure => rw [hread] at hok; cases hok
  | ok envelope =>
      exact ⟨envelope, [], _, [], resultObject "FEATURE_ACCEPTED", rfl, (fun _ h => nomatch h),
        (fun _ h => nomatch h), loads_resultObject _, hread⟩

/-- An output of the accepted message alone. -/
theorem accepted_message_survives :
    EnvelopeOfLast plainDecoding sameNumber (some correctedMetadata)
      [messageFields acceptedMessage] (streamOutput [messageLine acceptedMessage]) := by
  have hwhole : ∀ c ∈ messageLine acceptedMessage, isLineBoundary c = false := fun c hc =>
    messages_oneLine.2 c (List.mem_append_left _ hc)
  have hstream : Streamed plainDecoding ([acceptedMessage].map messageLine)
      ([acceptedMessage].map messageFields) := by
    refine streamed_messages fun message hmem hfeed => ?_
    rw [List.mem_singleton.mp hmem] at hfeed
    exact absurd (hwhole _ hfeed) (by decide)
  refine (envelope_of_last_iff hstream).1.mpr (lastSurvives_of_whole hstream ?_ ?_)
  · intro line hline
    rw [List.map_singleton, List.mem_singleton] at hline
    rw [hline]
    exact hwhole
  · intro message envelope hlast hmarked
    rw [messagesOf_messageFields, List.map_singleton, List.getLast?_singleton,
      Option.some.injEq] at hlast
    obtain ⟨hlines, hends⟩ := accepted_endsMarked
    rw [← hlast] at hmarked ⊢
    rw [String.toList_ofList, hlines]
    exact hends

/-- The rejection stands in an event whose line is cut, and the acceptance before it is used. -/
theorem separated_message_skipped :
    Streamed plainDecoding [messageLine acceptedMessage, messageLine separatedMessage]
        [messageFields acceptedMessage, messageFields separatedMessage] ∧
      messageRead plainDecoding
          (streamOutput [messageLine acceptedMessage, messageLine separatedMessage]) =
        some (String.ofList acceptedMessage) ∧
      (messagesOf [messageFields acceptedMessage, messageFields separatedMessage]).getLast? =
        some (String.ofList separatedMessage) ∧
      ¬EnvelopeOfLast plainDecoding sameNumber (some correctedMetadata)
        [messageFields acceptedMessage, messageFields separatedMessage]
        (streamOutput [messageLine acceptedMessage, messageLine separatedMessage]) := by
  have hwhole : ∀ c ∈ messageLine acceptedMessage, isLineBoundary c = false := fun c hc =>
    messages_oneLine.2 c (List.mem_append_left _ hc)
  have hlater : ∀ piece ∈ splitlines (messageLine separatedMessage ++ ['\n']),
      Json.loads plainDecoding piece = .error .malformed := by decide +kernel
  have hpieces : piecesOfLines [messageLine acceptedMessage, messageLine separatedMessage] =
      messageLine acceptedMessage :: splitlines (messageLine separatedMessage ++ ['\n']) := by
    rw [piecesOfLines, List.flatMap_cons, splitlines_plain hwhole, List.flatMap_singleton]
    rfl
  have hmessage : HasMessage plainDecoding (messageLine acceptedMessage)
      (String.ofList acceptedMessage) :=
    ⟨messageEvent acceptedMessage, loads_messageLine _, agentMessage_messageEvent _⟩
  have hread : messageRead plainDecoding
      (streamOutput [messageLine acceptedMessage, messageLine separatedMessage]) =
        some (String.ofList acceptedMessage) := by
    rw [messageRead_eq_some, splitlines_streamOutput, hpieces]
    refine ⟨fun piece hpiece => ?_, [], _, _, rfl, hmessage, fun later hmem other hother => ?_⟩
    · rcases List.mem_cons.mp hpiece with rfl | hpiece
      · rw [loads_messageLine]
        exact nofun
      · rw [hlater piece hpiece]
        exact nofun
    · obtain ⟨event, hloads, -⟩ := hother
      rw [hlater later hmem] at hloads
      cases hloads
  have hlast : (messagesOf [messageFields acceptedMessage, messageFields separatedMessage]).getLast? =
      some (String.ofList separatedMessage) := by
    have hmessages := messagesOf_messageFields [acceptedMessage, separatedMessage]
    rw [List.map_cons, List.map_singleton] at hmessages
    rw [hmessages]
    rfl
  have hstream : Streamed plainDecoding ([acceptedMessage, separatedMessage].map messageLine)
      ([acceptedMessage, separatedMessage].map messageFields) :=
    streamed_messages (by decide +kernel)
  refine ⟨hstream, hread, hlast, ?_⟩
  intro hlaw
  obtain ⟨hlines, envelope, hends⟩ := accepted_endsMarked
  have haccepted : extractTerminalEnvelope plainDecoding sameNumber (some correctedMetadata)
      (streamOutput [messageLine acceptedMessage, messageLine separatedMessage]) =
        .ok envelope := by
    refine extractTerminalEnvelope_eq_ok.mpr ⟨_, hread, ?_⟩
    rw [String.toList_ofList, hlines]
    exact hends
  obtain ⟨message, hown, hother, -⟩ := hlaw.last envelope haccepted
  obtain rfl := Option.some.inj (hlast.symm.trans hown)
  have hsame := String.ofList_injective (Option.some.inj (hread.symm.trans hother))
  have hhead : acceptedMessage.head? ≠ separatedMessage.head? := by decide +kernel
  exact hhead (congrArg List.head? hsame)

end Conveyor
