import Constellation.Config
import Constellation.Dns.Zone

/-! # Health status of record values

With health checks enabled, the values of A, AAAA and CNAME records that a
check found dead are in `HEALTH_DEAD_REGISTER`, by zone and record name; the
handler skips them.
-/

namespace Constellation.Dns

inductive DNSHealthStatus
  | Unchecked | Healthy | Dead
  deriving DecidableEq, Repr

/-- `HEALTH_DEAD_REGISTER`. -/
abbrev DeadRegister := Finset (ZoneName × RecordName × RecordValue)

namespace DNSHealth

def shouldCheckRecord : RecordType → Bool
  | .A | .AAAA | .CNAME => true
  | _ => false

/-- `DNSHealth::status`. -/
def status (conf : ConfigDNSHealth) (dead : DeadRegister) (zoneName : ZoneName)
    (recordType : RecordType) (recordName : RecordName) (recordValue : RecordValue) :
    DNSHealthStatus :=
  if conf.checkEnable ∧ shouldCheckRecord recordType then
    if (zoneName, recordName, recordValue) ∈ dead then .Dead else .Healthy
  else .Unchecked

theorem status_eq_dead_iff {conf : ConfigDNSHealth} {dead : DeadRegister} {zoneName : ZoneName}
    {recordType : RecordType} {recordName : RecordName} {recordValue : RecordValue} :
    status conf dead zoneName recordType recordName recordValue = .Dead ↔
      conf.checkEnable ∧ shouldCheckRecord recordType ∧ (zoneName, recordName, recordValue) ∈ dead := by
  unfold status
  split_ifs with h h' <;> simp_all

end DNSHealth

end Constellation.Dns
