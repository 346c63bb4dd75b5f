import MongoDam.Observer.Batch
import MongoDam.Observer.Stamp

/-!
# The command line

Observer is configured from its command line and its environment. The same values make
the assignment of its batches and the configuration of its event processor. Most texts
are checked before anything starts; the sensor id is not, and may be left out.
-/

namespace MongoDam.Observer

open Lib Schema

/-- The options that batches and events depend on, and those that are checked. -/
structure Cli where
  customerId : String
  tenantId : String
  sourceId : String
  regionalCellId : String
  clusterName : String
  nodeName : String
  sensorId : Option String
  outpostUrl : String
  batchMaxEvents : ℕ
  captureQueryContent : Bool
  maxMessageBytes : ℕ
  cpuProfileHz : ℕ
  mongodbPort : ℕ
  deriving DecidableEq

namespace Cli

/-- The texts that must not be empty, by the names of their options. -/
def requiredTexts (cli : Cli) : List (String × String) :=
  [("customer_id", cli.customerId), ("tenant_id", cli.tenantId), ("source_id", cli.sourceId),
    ("regional_cell_id", cli.regionalCellId), ("cluster_name", cli.clusterName),
    ("node_name", cli.nodeName), ("outpost_url", cli.outpostUrl)]

/-- Fail at the first text that is empty once trimmed. -/
def requireTexts : List (String × String) → Except String Unit
  | [] => .ok ()
  | (name, value) :: rest =>
    if isBlank value then .error (name ++ " must not be empty") else requireTexts rest

def validateCli (cli : Cli) : Except String Unit := do
  requireTexts cli.requiredTexts
  if cli.batchMaxEvents = 0 then throw "batch_max_events must be positive"
  if 999 < cli.cpuProfileHz then throw "cpu_profile_hz must be at most 999"
  if cli.mongodbPort = 0 then throw "mongodb_port must be positive"

/-- The sensor id that was given, or one made from the name of the node. -/
def sensorIdOrDefault (cli : Cli) : String :=
  cli.sensorId.getD ("mongodb-dam-observer-" ++ cli.nodeName)

def assignment (cli : Cli) : Assignment where
  customerId := cli.customerId
  tenantId := cli.tenantId
  sourceId := cli.sourceId
  regionalCellId := cli.regionalCellId
  sensorId := cli.sensorIdOrDefault
  nodeName := cli.nodeName

/-- The salt is read from a file of its own. -/
def processorConfig (cli : Cli) (principalHashSalt : Option String) : ProcessorConfig where
  customerId := cli.customerId
  tenantId := cli.tenantId
  sourceId := cli.sourceId
  regionalCellId := cli.regionalCellId
  sensorId := cli.sensorIdOrDefault
  nodeName := cli.nodeName
  clusterName := cli.clusterName
  maxMessageBytes := cli.maxMessageBytes
  cpuProfileHz := cli.cpuProfileHz
  principalHashSalt
  captureQueryContent := cli.captureQueryContent

/-! ### What is checked -/

private theorem requireTexts_eq_ok {texts : List (String × String)} :
    requireTexts texts = .ok () ↔ ∀ text ∈ texts, isBlank text.2 = false := by
  induction texts with
  | nil => simp [requireTexts]
  | cons text rest ih =>
    cases hblank : isBlank text.2 with
    | true => simp [requireTexts, hblank]
    | false => simp [requireTexts, hblank, ih]

/-- An accepted command line has no empty text, a batch size, a sampling rate that is not too
high, and a port. -/
theorem validateCli_eq_ok {cli : Cli} :
    cli.validateCli = .ok () ↔ (∀ text ∈ cli.requiredTexts, isBlank text.2 = false) ∧
      0 < cli.batchMaxEvents ∧ cli.cpuProfileHz ≤ 999 ∧ 0 < cli.mongodbPort := by
  rw [← requireTexts_eq_ok]
  unfold validateCli
  cases requireTexts cli.requiredTexts with
  | error error => simp [bind, Except.bind]
  | ok value =>
    by_cases hevents : cli.batchMaxEvents = 0
    · simp [bind, Except.bind, hevents, throw, throwThe, MonadExceptOf.throw]
    by_cases hrate : 999 < cli.cpuProfileHz
    · have hnot : ¬cli.cpuProfileHz ≤ 999 := by omega
      simp [bind, Except.bind, hevents, hrate, hnot, throw, throwThe, MonadExceptOf.throw]
    by_cases hport : cli.mongodbPort = 0
    · simp [bind, Except.bind, hevents, hrate, hport, throw, throwThe, MonadExceptOf.throw]
    · have hbounds : 0 < cli.batchMaxEvents ∧ cli.cpuProfileHz ≤ 999 ∧ 0 < cli.mongodbPort := by
        omega
      simp [bind, Except.bind, pure, Except.pure, hevents, hrate, hport, hbounds]

/-- The sensor id is blank exactly when it was given so. -/
theorem isBlank_sensorIdOrDefault {cli : Cli} :
    isBlank cli.sensorIdOrDefault = false ↔
      ∀ sensorId ∈ cli.sensorId, isBlank sensorId = false := by
  unfold sensorIdOrDefault
  cases cli.sensorId with
  | none =>
    have hdefault : isBlank ("mongodb-dam-observer-" ++ cli.nodeName) = false :=
      isBlank_append _ (by decide)
    simp [hdefault]
  | some sensorId => simp

end Cli

end MongoDam.Observer
