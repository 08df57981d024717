import Sturnus.Foundation.Counters
import Sturnus.Foundation.Text
import Sturnus.Tracker

/-!
# Metrics

The counters and histograms of the service.  A histogram is the list of the
observations made; its buckets and the text format are left out.
-/

namespace Sturnus

open Foundation

/-- The label values of one upstream: alias, provider and model. -/
structure UpstreamLabels where
  modelAlias : Text
  provider : Text
  model : Text
  deriving DecidableEq

structure Metrics where
  /-- By upstream and status code. -/
  requestsTotal : Counters (UpstreamLabels × Text)
  /-- Streaming time-to-first-chunk. -/
  ttfcSeconds : List (UpstreamLabels × Duration)
  /-- Non-streaming full response time. -/
  latencySeconds : List (UpstreamLabels × Duration)
  errorsTotal : Counters UpstreamLabels
  /-- Requests shed with 429 because the aggregate buffer budget was full. -/
  bufferRejectionsTotal : ℕ

namespace Metrics

def new : Metrics := ⟨[], [], [], [], 0⟩

/-- Zero-init error counters so a missing series isn't mistaken for "no errors". -/
def initZero (metrics : Metrics) (aliases : List UpstreamLabels) : Metrics :=
  { metrics with errorsTotal := aliases.foldl Counters.touch metrics.errorsTotal }

/-- Observe a latency in the histogram of its mode. -/
def observe (metrics : Metrics) (mode : LatencyMode) (labels : UpstreamLabels)
    (latency : Duration) : Metrics :=
  match mode with
  | .streaming => { metrics with ttfcSeconds := metrics.ttfcSeconds ++ [(labels, latency)] }
  | .nonStreaming =>
      { metrics with latencySeconds := metrics.latencySeconds ++ [(labels, latency)] }

/-- Requests and errors counted under the labels that satisfy `p`. -/
def forwarded (p : UpstreamLabels → Bool) (metrics : Metrics) : ℕ :=
  Counters.total (fun labels => p labels.1) metrics.requestsTotal +
    Counters.total p metrics.errorsTotal

theorem forwarded_initZero (p : UpstreamLabels → Bool) (aliases : List UpstreamLabels) :
    (new.initZero aliases).forwarded p = 0 := by
  have touched : ∀ counters : Counters UpstreamLabels,
      Counters.total p (aliases.foldl Counters.touch counters) = Counters.total p counters := by
    induction aliases with
    | nil => exact fun _ => rfl
    | cons labels rest inductionHypothesis =>
        intro counters
        exact (inductionHypothesis _).trans (Counters.total_touch p labels counters)
  unfold forwarded
  rw [initZero, touched]
  rfl

@[simp] theorem forwarded_observe (p : UpstreamLabels → Bool) (metrics : Metrics)
    (mode : LatencyMode) (labels : UpstreamLabels) (latency : Duration) :
    (metrics.observe mode labels latency).forwarded p = metrics.forwarded p := by
  cases mode <;> rfl

end Metrics

end Sturnus
