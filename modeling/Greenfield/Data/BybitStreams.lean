import Greenfield.Data.BybitReplay
import Greenfield.Lib.Interleave

/-!
# The streams of a Bybit replay

`replay_bybit_stream` of `src/data/bybit_replay.py`, which ends at the first error. The session
keeps a book and a connection for each symbol of the order-book channel, a ticker and a
connection for each symbol of the ticker channel, and counters that only add up. So events of
different streams commute (`apply_commutes`), and a replay depends on the order in each stream
alone (`replay_interleaving`).
-/

namespace Greenfield.Data

open Py Interleave

variable {D : Digests} (F : Floats) (T : Texts)

/-- `apply`, with what it raises. -/
def BybitReplaySession.applyOrRaise (s : BybitReplaySession) (e : RawMarketEvent D) :
    Except MarketError BybitReplaySession :=
  match s.apply F T e with
  | (.ok (), s') => .ok s'
  | (.error err, _) => .error err

/-- `replay_bybit_stream`, up to its report on the session. -/
def replayBybitStream : BybitReplaySession → List (RawMarketEvent D) →
    Except MarketError BybitReplaySession
  | s, [] => .ok s
  | s, e :: es =>
    match s.applyOrRaise F T e with
    | .ok s' => replayBybitStream s' es
    | .error err => .error err

/-- The stream of an event. -/
def streamOf (e : RawMarketEvent D) : String × String := (e.channel, e.symbol)

variable {F T}

theorem replayBybitStream_run (s : BybitReplaySession) (es : List (RawMarketEvent D)) :
    (replayBybitStream F T s es).toOption =
      run (fun s e => (s.applyOrRaise F T e).toOption) s es := by
  induction es generalizing s with
  | nil => rfl
  | cons e es ih =>
    unfold replayBybitStream run
    cases s.applyOrRaise F T e with
    | error err => rfl
    | ok s' => exact ih s'

/-! ## What an event reads and writes -/

theorem step_count (s : BybitReplaySession) (e : RawMarketEvent D) :
    (s.step F T e).rawEventCount = s.rawEventCount + 1 ∧ ∀ channel,
      (s.step F T e).channelCounts channel =
        s.channelCounts channel + if channel = e.channel then 1 else 0 := by
  have hcounts : (s.step F T e).rawEventCount = s.rawEventCount + 1 ∧
      (s.step F T e).channelCounts =
        Function.update s.channelCounts e.channel (s.channelCounts e.channel + 1) := by
    unfold BybitReplaySession.step BybitReplaySession.apply
    split
    · exact ⟨rfl, rfl⟩
    · split
      · exact ⟨rfl, rfl⟩
      · exact ⟨rfl, rfl⟩
  refine ⟨hcounts.1, fun channel => ?_⟩
  rw [hcounts.2, Function.update_apply]
  split
  · next h => rw [h]
  · rfl

variable {e : RawMarketEvent D} {symbol : String}

/-- An event of another stream leaves the book of a symbol. -/
theorem step_books (s : BybitReplaySession)
    (h : streamOf e ≠ ("orderbook", symbol)) :
    (s.step F T e).books symbol = s.books symbol ∧
      (s.step F T e).bookConnections symbol = s.bookConnections symbol := by
  by_cases hchannel : e.channel = "orderbook"
  · have hne : symbol ≠ e.symbol := by
      rintro rfl
      exact h (congrArg (·, e.symbol) hchannel)
    obtain ⟨-, hbooks, hconnections⟩ := apply_orderbook (F := F) (T := T) (s := s) hchannel
    unfold BybitReplaySession.step
    rw [hbooks, hconnections]
    exact ⟨Function.update_of_ne hne _ _, Function.update_of_ne hne _ _⟩
  · obtain ⟨hbooks, hconnections⟩ := apply_other (F := F) (T := T) (s := s) hchannel
    unfold BybitReplaySession.step
    rw [hbooks, hconnections]
    exact ⟨rfl, rfl⟩

/-- The ticker of the event's symbol, invalid if its connection is another. -/
def connectedTicker (s : BybitReplaySession) (e : RawMarketEvent D) : BybitTickerState :=
  if s.tickerConnections e.symbol = some e.connectionId then s.ticker e.symbol
  else (s.ticker e.symbol).invalidate

variable {s : BybitReplaySession}

/-- A ticker event changes the ticker of its symbol. -/
theorem apply_ticker (h : e.channel = "ticker") :
    (s.apply F T e).1 = ((connectedTicker s e).applyEvent F T e).1 ∧
    (s.apply F T e).2.tickers =
      Function.update s.tickers e.symbol (some ((connectedTicker s e).applyEvent F T e).2) ∧
    (s.apply F T e).2.tickerConnections =
      Function.update s.tickerConnections e.symbol (some e.connectionId) := by
  have hne : e.channel ≠ "orderbook" := by
    rw [h]
    decide
  unfold BybitReplaySession.apply
  dsimp only
  rw [if_neg hne, if_pos h]
  exact ⟨rfl, rfl, rfl⟩

/-- Events of other channels change no ticker. -/
theorem apply_not_ticker
    (h : e.channel ≠ "ticker") : (s.apply F T e).2.tickers = s.tickers ∧
      (s.apply F T e).2.tickerConnections = s.tickerConnections := by
  unfold BybitReplaySession.apply
  dsimp only
  rw [if_neg h]
  split
  · exact ⟨rfl, rfl⟩
  · exact ⟨rfl, rfl⟩

/-- An event of another stream leaves the ticker of a symbol. -/
theorem step_tickers (s : BybitReplaySession)
    (h : streamOf e ≠ ("ticker", symbol)) :
    (s.step F T e).tickers symbol = s.tickers symbol ∧
      (s.step F T e).tickerConnections symbol = s.tickerConnections symbol := by
  unfold BybitReplaySession.step
  by_cases hchannel : e.channel = "ticker"
  · have hne : symbol ≠ e.symbol := by
      rintro rfl
      exact h (congrArg (·, e.symbol) hchannel)
    obtain ⟨-, htickers, hconnections⟩ := apply_ticker (F := F) (T := T) (s := s) hchannel
    rw [htickers, hconnections]
    exact ⟨Function.update_of_ne hne _ _, Function.update_of_ne hne _ _⟩
  · obtain ⟨htickers, hconnections⟩ := apply_not_ticker (F := F) (T := T) (s := s) hchannel
    rw [htickers, hconnections]
    exact ⟨rfl, rfl⟩

/-! ## Two streams -/

variable {s s' : BybitReplaySession}

/-- What an order-book event does is told by the book and the connection of its symbol. -/
theorem apply_book_congr
    (h : e.channel = "orderbook") (hbooks : s'.books e.symbol = s.books e.symbol)
    (hconnections : s'.bookConnections e.symbol = s.bookConnections e.symbol) :
    (s'.apply F T e).1 = (s.apply F T e).1 ∧
      (s'.step F T e).books e.symbol = (s.step F T e).books e.symbol ∧
      (s'.step F T e).bookConnections e.symbol = (s.step F T e).bookConnections e.symbol := by
  have hconnected : s'.connected e = s.connected e := by
    unfold BybitReplaySession.connected BybitReplaySession.book
    rw [hbooks, hconnections]
  obtain ⟨hanswer, hafter, hconnection⟩ := apply_orderbook (F := F) (T := T) (s := s) h
  obtain ⟨hanswer', hafter', hconnection'⟩ := apply_orderbook (F := F) (T := T) (s := s') h
  unfold BybitReplaySession.step
  rw [hanswer, hanswer', hafter, hafter', hconnection, hconnection', hconnected,
    Function.update_self, Function.update_self, Function.update_self, Function.update_self]
  exact ⟨rfl, rfl, rfl⟩

/-- What a ticker event does is told by the ticker and the connection of its symbol. -/
theorem apply_ticker_congr
    (h : e.channel = "ticker") (htickers : s'.tickers e.symbol = s.tickers e.symbol)
    (hconnections : s'.tickerConnections e.symbol = s.tickerConnections e.symbol) :
    (s'.apply F T e).1 = (s.apply F T e).1 ∧
      (s'.step F T e).tickers e.symbol = (s.step F T e).tickers e.symbol ∧
      (s'.step F T e).tickerConnections e.symbol = (s.step F T e).tickerConnections e.symbol := by
  have hconnected : connectedTicker s' e = connectedTicker s e := by
    unfold connectedTicker BybitReplaySession.ticker
    rw [htickers, hconnections]
  obtain ⟨hanswer, hafter, hconnection⟩ := apply_ticker (F := F) (T := T) (s := s) h
  obtain ⟨hanswer', hafter', hconnection'⟩ := apply_ticker (F := F) (T := T) (s := s') h
  unfold BybitReplaySession.step
  rw [hanswer, hanswer', hafter, hafter', hconnection, hconnection', hconnected,
    Function.update_self, Function.update_self, Function.update_self, Function.update_self]
  exact ⟨rfl, rfl, rfl⟩

variable {i j : RawMarketEvent D}

/-- An event of another stream does not change what an event answers. -/
theorem apply_answer (s : BybitReplaySession)
    (h : streamOf i ≠ streamOf j) : ((s.step F T i).apply F T j).1 = (s.apply F T j).1 := by
  by_cases hbook : j.channel = "orderbook"
  · have hne : streamOf i ≠ ("orderbook", j.symbol) :=
      fun heq => h (heq.trans (congrArg (·, j.symbol) hbook.symm))
    obtain ⟨hbooks, hconnections⟩ := step_books (F := F) (T := T) s hne
    exact (apply_book_congr hbook hbooks hconnections).1
  · by_cases hticker : j.channel = "ticker"
    · have hne : streamOf i ≠ ("ticker", j.symbol) :=
        fun heq => h (heq.trans (congrArg (·, j.symbol) hticker.symm))
      obtain ⟨htickers, hconnections⟩ := step_tickers (F := F) (T := T) s hne
      exact (apply_ticker_congr hticker htickers hconnections).1
    · unfold BybitReplaySession.apply
      simp only [if_neg hbook, if_neg hticker]

/-- The book of a symbol after an event of its stream, with one of another stream before it or
after it. -/
theorem books_comm (s : BybitReplaySession)
    (h : streamOf i ≠ streamOf j) (hi : streamOf i = ("orderbook", symbol)) :
    ((s.step F T i).step F T j).books symbol = ((s.step F T j).step F T i).books symbol ∧
      ((s.step F T i).step F T j).bookConnections symbol =
        ((s.step F T j).step F T i).bookConnections symbol := by
  obtain ⟨hchannel, rfl⟩ := Prod.mk.inj hi
  have hj : streamOf j ≠ ("orderbook", i.symbol) := fun heq => h (hi.trans heq.symm)
  obtain ⟨hlast, hlast'⟩ := step_books (F := F) (T := T) (s.step F T i) hj
  obtain ⟨hfirst, hfirst'⟩ := step_books (F := F) (T := T) s hj
  obtain ⟨-, hown, hown'⟩ := apply_book_congr (F := F) (T := T) hchannel hfirst hfirst'
  exact ⟨hlast.trans hown.symm, hlast'.trans hown'.symm⟩

theorem tickers_comm (s : BybitReplaySession)
    (h : streamOf i ≠ streamOf j) (hi : streamOf i = ("ticker", symbol)) :
    ((s.step F T i).step F T j).tickers symbol = ((s.step F T j).step F T i).tickers symbol ∧
      ((s.step F T i).step F T j).tickerConnections symbol =
        ((s.step F T j).step F T i).tickerConnections symbol := by
  obtain ⟨hchannel, rfl⟩ := Prod.mk.inj hi
  have hj : streamOf j ≠ ("ticker", i.symbol) := fun heq => h (hi.trans heq.symm)
  obtain ⟨hlast, hlast'⟩ := step_tickers (F := F) (T := T) (s.step F T i) hj
  obtain ⟨hfirst, hfirst'⟩ := step_tickers (F := F) (T := T) s hj
  obtain ⟨-, hown, hown'⟩ := apply_ticker_congr (F := F) (T := T) hchannel hfirst hfirst'
  exact ⟨hlast.trans hown.symm, hlast'.trans hown'.symm⟩

/-- Events of different streams leave the same session in both orders. -/
theorem step_comm (s : BybitReplaySession)
    (h : streamOf i ≠ streamOf j) :
    (s.step F T i).step F T j = (s.step F T j).step F T i := by
  have hbooks : ∀ symbol,
      ((s.step F T i).step F T j).books symbol = ((s.step F T j).step F T i).books symbol ∧
      ((s.step F T i).step F T j).bookConnections symbol =
        ((s.step F T j).step F T i).bookConnections symbol := by
    intro symbol
    by_cases hi : streamOf i = ("orderbook", symbol)
    · exact books_comm s h hi
    · by_cases hj : streamOf j = ("orderbook", symbol)
      · obtain ⟨hown, hown'⟩ := books_comm (F := F) (T := T) s (Ne.symm h) hj
        exact ⟨hown.symm, hown'.symm⟩
      · simp only [step_books _ hi, step_books _ hj, and_self]
  have htickers : ∀ symbol,
      ((s.step F T i).step F T j).tickers symbol = ((s.step F T j).step F T i).tickers symbol ∧
      ((s.step F T i).step F T j).tickerConnections symbol =
        ((s.step F T j).step F T i).tickerConnections symbol := by
    intro symbol
    by_cases hi : streamOf i = ("ticker", symbol)
    · exact tickers_comm s h hi
    · by_cases hj : streamOf j = ("ticker", symbol)
      · obtain ⟨hown, hown'⟩ := tickers_comm (F := F) (T := T) s (Ne.symm h) hj
        exact ⟨hown.symm, hown'.symm⟩
      · simp only [step_tickers _ hi, step_tickers _ hj, and_self]
  have hcounts : ∀ channel, ((s.step F T i).step F T j).channelCounts channel =
      ((s.step F T j).step F T i).channelCounts channel := by
    intro channel
    simp only [(step_count _ _).2]
    omega
  have hcount : ((s.step F T i).step F T j).rawEventCount =
      ((s.step F T j).step F T i).rawEventCount := by
    simp only [(step_count _ _).1]
  generalize (s.step F T i).step F T j = a at hbooks htickers hcounts hcount ⊢
  generalize (s.step F T j).step F T i = b at hbooks htickers hcounts hcount ⊢
  cases a
  cases b
  congr 1
  · exact funext fun symbol => (hbooks symbol).1
  · exact funext fun symbol => (htickers symbol).1
  · exact funext fun symbol => (hbooks symbol).2
  · exact funext fun symbol => (htickers symbol).2
  · exact funext hcounts

theorem apply_commutes : Commutes
    (fun (s : BybitReplaySession) (e : RawMarketEvent D) => (s.applyOrRaise F T e).toOption)
    streamOf := by
  have hstep : (fun (s : BybitReplaySession) (e : RawMarketEvent D) =>
      (s.applyOrRaise F T e).toOption) =
        fun s e => if (s.apply F T e).1.isOk then some (s.step F T e) else none := by
    funext s e
    unfold BybitReplaySession.applyOrRaise BybitReplaySession.step
    cases hanswer : s.apply F T e with
    | mk answer s' =>
      cases answer with
      | ok u => rfl
      | error err => rfl
  rw [hstep]
  apply commutes_of_total
  · intro s i j h
    rw [apply_answer s h]
  · exact fun s i j h => step_comm s h

/-- **The order in each stream.** A replay raises on two interleavings of the same streams, or
ends in one session, with the same books, tickers, connections and counts. -/
theorem replay_interleaving {es es' : List (RawMarketEvent D)}
    (h : Interleaving streamOf es es') :
    (∃ s, replayBybitStream F T {} es = .ok s ∧ replayBybitStream F T {} es' = .ok s) ∨
      ∃ err err', replayBybitStream F T {} es = .error err ∧
        replayBybitStream F T {} es' = .error err' := by
  have hsame : (replayBybitStream F T {} es).toOption = (replayBybitStream F T {} es').toOption := by
    rw [replayBybitStream_run, replayBybitStream_run]
    exact run_interleaving apply_commutes h
  cases hes : replayBybitStream F T {} es <;> cases hes' : replayBybitStream F T {} es' <;>
    rw [hes, hes'] at hsame <;> cases hsame
  · exact .inr ⟨_, _, rfl, rfl⟩
  · exact .inl ⟨_, rfl, rfl⟩

/-! ## Two symbols -/

/-- A trade of a symbol. -/
def symbolEvent (symbol : String) : RawMarketEvent (digestOf []) :=
  { bookEvent "bybit" "snapshot" "c" none [] sampleConnection_ne with
    channel := "trades"
    symbol }

theorem replay_interleaving_symbols :
    (∃ s, replayBybitStream sampleFloats sampleTexts {} [symbolEvent "BTC", symbolEvent "ETH"] =
        .ok s ∧
      replayBybitStream sampleFloats sampleTexts {} [symbolEvent "ETH", symbolEvent "BTC"] = .ok s) ∨
    ∃ err err',
      replayBybitStream sampleFloats sampleTexts {} [symbolEvent "BTC", symbolEvent "ETH"] =
        .error err ∧
      replayBybitStream sampleFloats sampleTexts {} [symbolEvent "ETH", symbolEvent "BTC"] =
        .error err' := by
  apply replay_interleaving
  exact Interleaving.swap fun h => absurd (congrArg Prod.snd h) (by decide)

end Greenfield.Data
