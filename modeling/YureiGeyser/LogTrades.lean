import YureiGeyser.Ingest

/-!
# The trades of a log

Every line that decodes and parses is a trade of its transaction.  The loop of `process_pumpfun`
returns after the first of them, so that the others never reach the queue.
-/

namespace YureiGeyser

/-- The trade of a line that `decode_program_data_line` and `pumpfun_parse_trade` accept. -/
def lineTrade (line : CString) : Option PumpfunTrade :=
  match decodeProgramDataLine line 768 with
  | .ok (some decoded) => pumpfunParseTrade decoded
  | _ => none

/-- The trades of a log, in log order. -/
def logTrades (lines : List CString) : List PumpfunTrade :=
  lines.filterMap lineTrade

/-- The event of a trade. -/
def tradeEvent (calloc : Bool) (update : SubscribeUpdateTransaction) (trade : PumpfunTrade) :
    Event :=
  makeEvent calloc update (.pumpfunTrade { trade with slot := update.slotOrZero })

/-- The pushes of `dispatch_event` for a list of events: no result while one of them waits. -/
def dispatchEvents : List Event → Queue → Metrics → Option (Queue × Metrics)
  | [], queue, metrics => some (queue, metrics)
  | event :: events, queue, metrics =>
      match dispatchEvent event queue metrics with
      | none => none
      | some (queue', metrics') => dispatchEvents events queue' metrics'

/-- An open queue with room for the trades of a log receives one event for each, in log order. -/
def TradesPushed (detector : ProtocolDetector) (calloc : Bool) (update : SubscribeUpdateTransaction)
    (lines : List CString) : Prop :=
  ∃ events, handleTransaction detector calloc (some update) = .ok events ∧
    ∀ (capacity : ℕ) (channel : Channel Event capacity) (queue : Queue) (metrics : Metrics),
      queue.Represents channel → queue.closed = false →
      queue.size + (logTrades lines).length ≤ capacity →
        ∃ queue' metrics', dispatchEvents events queue metrics = some (queue', metrics') ∧
          queue'.contents = queue.contents ++ (logTrades lines).map (tradeEvent calloc update)

section Log

variable {detector : ProtocolDetector} {calloc : Bool} {update : SubscribeUpdateTransaction}
  {lines : List CString}

/-- The loop over the log dispatches the first trade only. -/
theorem scanLogMessages_eq_take (lines : List CString) :
    scanLogMessages (parseTradeOf update) 768 calloc update lines =
      .ok (((logTrades lines).take 1).map (tradeEvent calloc update)) := by
  induction lines with
  | nil => rfl
  | cons line lines ih =>
      obtain ⟨result, decodes⟩ := decodeProgramDataLine_ok line (show 768 % 3 = 0 from rfl)
      rw [scanLogMessages, decodes, logTrades, List.filterMap_cons, lineTrade, decodes]
      cases result with
      | none => exact ih
      | some decoded =>
          simp only [parseTradeOf]
          cases pumpfunParseTrade decoded with
          | none => exact ih
          | some trade => rfl

theorem handleTransaction_eq_take (detected : update.protocol detector = .pumpfun)
    (logged : update.logMessages = some lines) :
    handleTransaction detector calloc (some update) =
      .ok (((logTrades lines).take 1).map (tradeEvent calloc update)) := by
  rw [handleTransaction_eq, detected]
  simp only
  rw [processPumpfun, processLogMessages_eq, logged]
  exact scanLogMessages_eq_take lines

/-- At most one event needs at most one place. -/
theorem dispatchEvents_of_room {capacity : ℕ} {channel : Channel Event capacity} {queue : Queue}
    (represents : queue.Represents channel) (opened : queue.closed = false) {events : List Event}
    (single : events.length ≤ 1) (room : queue.size + events.length ≤ capacity)
    (metrics : Metrics) :
    ∃ queue' metrics', dispatchEvents events queue metrics = some (queue', metrics') ∧
      queue'.contents = queue.contents ++ events := by
  match events, single with
  | [], _ => exact ⟨queue, metrics, rfl, (List.append_nil _).symm⟩
  | [event], _ =>
      obtain ⟨queue', metrics', pushed, contents⟩ :=
        dispatchEvent_of_room represents opened room event metrics
      refine ⟨queue', metrics', ?_, contents⟩
      rw [dispatchEvents, pushed]
      rfl

/-- Of several trades only the first is pushed. -/
theorem length_logTrades_le_one (detected : update.protocol detector = .pumpfun)
    (logged : update.logMessages = some lines)
    (pushed : TradesPushed detector calloc update lines) : (logTrades lines).length ≤ 1 := by
  obtain ⟨events, dispatched, pushes⟩ := pushed
  have handled : handleTransaction detector calloc (some update) = _ :=
    handleTransaction_eq_take detected logged
  obtain rfl := Except.ok.inj (handled.symm.trans dispatched)
  -- An empty ring with one place more than there are trades shows what is pushed.
  have represents := Queue.eventQueueCreate_represents (Nat.succ_pos (logTrades lines).length)
  have size : (eventQueueCreate (logTrades lines).length.succ).size = 0 := rfl
  obtain ⟨queue, metrics, all_pushed, all⟩ :=
    pushes _ _ _ Metrics.init represents rfl (by omega)
  have single : (((logTrades lines).take 1).map (tradeEvent calloc update)).length ≤ 1 := by
    rw [List.length_map, List.length_take]
    exact Nat.min_le_left _ _
  obtain ⟨queue', metrics', first_pushed, first⟩ :=
    dispatchEvents_of_room represents rfl single (by omega) Metrics.init
  rw [all_pushed] at first_pushed
  cases first_pushed
  rw [all] at first
  have same := congrArg List.length (List.append_cancel_left first)
  rw [List.length_map] at same
  omega

/-- All trades of a log are pushed exactly when it has at most one. -/
theorem tradesPushed_iff (detected : update.protocol detector = .pumpfun)
    (logged : update.logMessages = some lines) :
    TradesPushed detector calloc update lines ↔ (logTrades lines).length ≤ 1 := by
  constructor
  · exact length_logTrades_le_one detected logged
  · intro few
    refine ⟨_, handleTransaction_eq_take detected logged, ?_⟩
    intro capacity channel queue metrics represents opened room
    rw [List.take_of_length_le few]
    have length : ((logTrades lines).map (tradeEvent calloc update)).length =
        (logTrades lines).length := List.length_map _
    exact dispatchEvents_of_room represents opened (by omega) (by omega) metrics

end Log

/-- The line with the bytes of a trade is accepted with all its fields. -/
theorem lineTrade_programDataLine {front : CString} {layout : PumpfunTradeLayout}
    (unmarked : ¬ programData.bytes <:+: front.bytes) :
    lineTrade (programDataLine front layout.encode) = some (layout.trade 0) := by
  have length : layout.encode.length = 250 := PumpfunTradeLayout.encode_length layout
  have nonempty : layout.encode ≠ [] := by
    intro empty
    rw [empty] at length
    cases length
  have padded := pumpfunParseTrade_encode layout
    (List.replicate (Base64.padLength layout.encode.length) 0)
  rw [lineTrade, decodeProgramDataLine_programDataLine unmarked nonempty,
    Base64.base64Decode_encode, if_neg (by omega), if_pos (by rw [Base64.padLength]; omega)]
  exact padded

/-- A line with the trade of the samples. -/
def sampleTradeLine : CString :=
  programDataLine CString.empty sampleTrade.encode

/-- One trade between two other lines. -/
theorem tradesPushed_iff_one_trade :
    TradesPushed sampleDetector true
        (sampleUpdate (filledKey 1) [1] [programData, sampleTradeLine, programData])
        [programData, sampleTradeLine, programData] ↔
      (logTrades [programData, sampleTradeLine, programData]).length ≤ 1 :=
  tradesPushed_iff (by decide) rfl

/-- Of a log with two trades one is lost. -/
theorem not_tradesPushed_two_trades :
    ¬ TradesPushed sampleDetector true
      (sampleUpdate (filledKey 1) [1] [sampleTradeLine, sampleTradeLine])
      [sampleTradeLine, sampleTradeLine] := by
  intro pushed
  have few := length_logTrades_le_one (by decide) rfl pushed
  have accepted : lineTrade sampleTradeLine = some (sampleTrade.trade 0) :=
    lineTrade_programDataLine (by decide)
  rw [logTrades, List.filterMap_cons_some accepted, List.filterMap_cons_some accepted] at few
  simp at few

end YureiGeyser
