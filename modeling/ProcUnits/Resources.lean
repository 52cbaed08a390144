/-!
Resource controls of a service (section 3 of the specification). A control that has no value is left
to the init system.

* `Resources`: the controls; `Resources.fillFrom` takes the missing ones from elsewhere, and
  `Resources.fillFrom_self` says that this changes nothing where nothing is missing;
* `Resources.numbers`: the controls that are numbers, by name.
-/

namespace ProcUnits

/-- The resource controls of a service. -/
structure Resources where
  cpuWeight : Option Int := none
  startupCpuWeight : Option Int := none
  cpuQuota : Option Int := none
  cpuAffinity : Option String := none
  memoryLow : Option String := none
  memoryHigh : Option String := none
  memoryMax : Option String := none
  memorySwapMax : Option String := none
  tasksMax : Option Int := none
  ioWeight : Option Int := none
  startupIoWeight : Option Int := none
  ioDeviceWeight : Option String := none
  ioReadBandwidthMax : Option String := none
  ioWriteBandwidthMax : Option String := none
  ioReadIopsMax : Option String := none
  ioWriteIopsMax : Option String := none
  ipAddressAllow : Option String := none
  ipAddressDeny : Option String := none
  deriving DecidableEq, Repr, Inhabited

namespace Resources

/-- The controls, each one that is missing taken from `other` (section 4.4). -/
def fillFrom (own other : Resources) : Resources where
  cpuWeight := own.cpuWeight.or other.cpuWeight
  startupCpuWeight := own.startupCpuWeight.or other.startupCpuWeight
  cpuQuota := own.cpuQuota.or other.cpuQuota
  cpuAffinity := own.cpuAffinity.or other.cpuAffinity
  memoryLow := own.memoryLow.or other.memoryLow
  memoryHigh := own.memoryHigh.or other.memoryHigh
  memoryMax := own.memoryMax.or other.memoryMax
  memorySwapMax := own.memorySwapMax.or other.memorySwapMax
  tasksMax := own.tasksMax.or other.tasksMax
  ioWeight := own.ioWeight.or other.ioWeight
  startupIoWeight := own.startupIoWeight.or other.startupIoWeight
  ioDeviceWeight := own.ioDeviceWeight.or other.ioDeviceWeight
  ioReadBandwidthMax := own.ioReadBandwidthMax.or other.ioReadBandwidthMax
  ioWriteBandwidthMax := own.ioWriteBandwidthMax.or other.ioWriteBandwidthMax
  ioReadIopsMax := own.ioReadIopsMax.or other.ioReadIopsMax
  ioWriteIopsMax := own.ioWriteIopsMax.or other.ioWriteIopsMax
  ipAddressAllow := own.ipAddressAllow.or other.ipAddressAllow
  ipAddressDeny := own.ipAddressDeny.or other.ipAddressDeny

/-- The controls that are numbers, under the names they have in a service file. -/
def numbers (r : Resources) : List (String × Option Int) :=
  [("cpu_weight", r.cpuWeight), ("startup_cpu_weight", r.startupCpuWeight),
    ("cpu_quota", r.cpuQuota), ("task_max", r.tasksMax), ("io_weight", r.ioWeight),
    ("startup_io_weight", r.startupIoWeight)]

/-- Filling controls from themselves changes nothing. -/
theorem fillFrom_self (r : Resources) : r.fillFrom r = r := by
  simp [fillFrom]

/-- Filling twice from the same controls is filling once. -/
theorem fillFrom_fillFrom (r other : Resources) :
    (r.fillFrom other).fillFrom other = r.fillFrom other := by
  simp [fillFrom, Option.or_assoc]

end Resources

end ProcUnits
