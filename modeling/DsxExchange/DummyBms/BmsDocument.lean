import DsxExchange.DummyBms.Schema

/-
  The channels of the BMS specification: for each object type
  the values and the metadata that the BMS publishes, and the
  values that integrations publish.

  Only what the validator reads of a channel is kept: its
  address, the point types it lists, and its messages.

  Key definitions include:
    * `DummyBms.Channel`, `DummyBms.Channel.object`
    * `DummyBms.bmsChannels`, `DummyBms.bmsDocument`

  Key theorems include:
    * `DummyBms.Channel.declaredEnum_iff`
    * `DummyBms.mem_channels_bmsDocument_iff`
-/

------------------------------------------------------------
-- Channels
------------------------------------------------------------

namespace DummyBms

open Go (Any)

/- Who publishes what on a channel. -/
inductive ChannelKind where
  | value
  | metadata
  | integration
deriving DecidableEq

/- The start of the addresses of a kind. -/
def ChannelKind.root : ChannelKind → String
| .value => "BMS/v1/PUB/Value/"
| .metadata => "BMS/v1/PUB/Metadata/"
| .integration => "BMS/v1/{integration}/Value/"

/-
  A channel of the document. The messages are given by the
  names of the components they refer to.
-/
structure Channel where
  kind : ChannelKind
  objectType : String
  pointTypes : List String
  messages : List (String × String)
deriving DecidableEq

def valueChannel
    (objectType : String)
    (pointTypes : List String) : Channel :=
  ⟨.value, objectType, pointTypes,
    [("valueMessage", "ValueMessage")]⟩

def metadataChannel
    (objectType : String)
    (pointTypes : List String)
    (messages : List (String × String)) : Channel :=
  ⟨.metadata, objectType, pointTypes, messages⟩

def integrationChannel
    (objectType : String)
    (pointTypes : List String) : Channel :=
  ⟨.integration, objectType, pointTypes,
    [("valueMessage", "ValueMessage")]⟩

namespace Channel

def address (c : Channel) : String :=
  c.kind.root ++ c.objectType ++ "/{pointType}/{tagPath}"

/- The parameters; only the point type lists its values. -/
def parameters (c : Channel) : List (String × Any) :=
  let declared :=
    [("pointType",
        .map [("enum", .slice (c.pointTypes.map .string))]),
      ("tagPath", .map [])]
  match c.kind with
  | .integration => ("integration", .map []) :: declared
  | _ => declared

def fields (c : Channel) : List (String × Any) :=
  [("address", .string c.address),
    ("parameters", .map c.parameters),
    ("messages", .map
      (c.messages.map (fun m =>
        (m.1, .map
          [("$ref",
            .string ("#/components/messages/" ++ m.2))]))))]

end Channel

end DummyBms

------------------------------------------------------------
-- The Channels Of Each Object Type
------------------------------------------------------------

namespace DummyBms

def rackBmsValue : Channel :=
  valueChannel "Rack"
    ["RackLiquidSupplyTemperature",
     "RackLiquidReturnTemperature", "RackLiquidFlow",
     "RackLiquidDifferentialPressure",
     "RackLiquidDifferentialPressureSp",
     "RackControlValvePosition", "RackPower",
     "RackLeakDetect", "RackLeakSensorFault",
     "RackLiquidIsolationStatus",
     "RackElectricalIsolationStatus"]

def rackMetadata : Channel :=
  metadataChannel "Rack"
    ["RackLiquidSupplyTemperature",
     "RackLiquidReturnTemperature", "RackLiquidFlow",
     "RackLiquidDifferentialPressure",
     "RackLiquidDifferentialPressureSp",
     "RackControlValvePosition", "RackPower",
     "RackLeakDetect", "RackLeakSensorFault",
     "RackLeakDetectTray", "RackLiquidIsolationStatus",
     "RackElectricalIsolationStatus",
     "RackLiquidIsolationRequest",
     "RackElectricalIsolationRequest"]
    [("rackLiquidSupplyTemperature", "RackLiquidSupplyTemperatureMsg"),
     ("rackLiquidReturnTemperature", "RackLiquidReturnTemperatureMsg"),
     ("rackLiquidFlow", "RackLiquidFlowMsg"),
     ("rackLiquidDifferentialPressure", "RackLiquidDifferentialPressureMsg"),
     ("rackLiquidDifferentialPressureSp", "RackLiquidDifferentialPressureSpMsg"),
     ("rackControlValvePosition", "RackControlValvePositionMsg"),
     ("rackPower", "RackPowerMsg"),
     ("rackLeakDetect", "RackLeakDetectMsg"),
     ("rackLeakSensorFault", "RackLeakSensorFaultMsg"),
     ("rackLeakDetectTray", "RackLeakDetectTrayMsg"),
     ("rackLiquidIsolationStatus", "RackLiquidIsolationStatusMsg"),
     ("rackElectricalIsolationStatus", "RackElectricalIsolationStatusMsg"),
     ("rackLiquidIsolationRequest", "RackLiquidIsolationRequestMsg"),
     ("rackElectricalIsolationRequest", "RackElectricalIsolationRequestMsg")]

def rackIntegrationValue : Channel :=
  integrationChannel "Rack"
    ["RackLeakDetectTray", "RackLiquidIsolationRequest",
     "RackElectricalIsolationRequest"]

def powerMeterValue : Channel :=
  valueChannel "PowerMeter"
    ["Voltage", "PowerFactor", "Frequency", "ApparentPower",
     "ActivePower", "Current", "CurrentLimit",
     "PhaseCurrent", "GenericPoint"]

def powerMeterMetadata : Channel :=
  metadataChannel "PowerMeter"
    ["Voltage", "PowerFactor", "Frequency", "ApparentPower",
     "ActivePower", "Current", "CurrentLimit",
     "PhaseCurrent", "GenericPoint"]
    [("voltage", "PowerMeterVoltageMsg"),
     ("powerFactor", "PowerMeterPowerFactorMsg"),
     ("frequency", "PowerMeterFrequencyMsg"),
     ("apparentPower", "PowerMeterApparentPowerMsg"),
     ("activePower", "PowerMeterActivePowerMsg"),
     ("current", "PowerMeterCurrentMsg"),
     ("currentLimit", "PowerMeterCurrentLimitMsg"),
     ("genericPoint", "GenericPowerMeterPointMsg"),
     ("phaseCurrent", "PowerMeterPhaseCurrentMsg")]

def powerMeterIntegrationValue : Channel :=
  integrationChannel "PowerMeter"
    ["GenericPoint"]

def bessValue : Channel :=
  valueChannel "BESS"
    ["Status", "Available", "GenericPoint"]

def bessMetadata : Channel :=
  metadataChannel "BESS"
    ["Status", "Available", "GenericPoint"]
    [("status", "BESSStatusMsg"),
     ("genericPoint", "GenericEquipmentPointMsg"),
     ("available", "BESSAvailableMsg")]

def bessIntegrationValue : Channel :=
  integrationChannel "BESS"
    ["GenericPoint"]

def upsValue : Channel :=
  valueChannel "UPS"
    ["Status", "Available", "GenericPoint"]

def upsMetadata : Channel :=
  metadataChannel "UPS"
    ["Status", "Available", "GenericPoint"]
    [("status", "UPSStatusMsg"),
     ("genericPoint", "GenericEquipmentPointMsg"),
     ("available", "UPSAvailableMsg")]

def upsIntegrationValue : Channel :=
  integrationChannel "UPS"
    ["GenericPoint"]

def atsValue : Channel :=
  valueChannel "ATS"
    ["Status", "Available", "GenericPoint"]

def atsMetadata : Channel :=
  metadataChannel "ATS"
    ["Status", "Available", "GenericPoint"]
    [("status", "ATSStatusMsg"),
     ("genericPoint", "GenericEquipmentPointMsg"),
     ("available", "ATSAvailableMsg")]

def atsIntegrationValue : Channel :=
  integrationChannel "ATS"
    ["GenericPoint"]

def generatorValue : Channel :=
  valueChannel "Generator"
    ["Status", "Available", "GenericPoint"]

def generatorMetadata : Channel :=
  metadataChannel "Generator"
    ["Status", "Available", "GenericPoint"]
    [("status", "GeneratorStatusMsg"),
     ("genericPoint", "GenericEquipmentPointMsg"),
     ("available", "GeneratorAvailableMsg")]

def generatorIntegrationValue : Channel :=
  integrationChannel "Generator"
    ["GenericPoint"]

def shuntValue : Channel :=
  valueChannel "Shunt"
    ["Status", "Available", "GenericPoint"]

def shuntMetadata : Channel :=
  metadataChannel "Shunt"
    ["Status", "Available", "GenericPoint"]
    [("status", "ShuntStatusMsg"),
     ("genericPoint", "GenericEquipmentPointMsg"),
     ("available", "ShuntAvailableMsg")]

def shuntIntegrationValue : Channel :=
  integrationChannel "Shunt"
    ["GenericPoint"]

def breakerValue : Channel :=
  valueChannel "Breaker"
    ["Status", "Available", "GenericPoint"]

def breakerMetadata : Channel :=
  metadataChannel "Breaker"
    ["Status", "Available", "GenericPoint"]
    [("status", "BreakerStatusMsg"),
     ("genericPoint", "GenericEquipmentPointMsg"),
     ("available", "BreakerAvailableMsg")]

def breakerIntegrationValue : Channel :=
  integrationChannel "Breaker"
    ["GenericPoint"]

def cduValue : Channel :=
  valueChannel "CDU"
    ["LiquidTemperature", "LiquidDifferentialPressure",
     "LiquidFlow", "LiquidPressure", "Status", "Available",
     "ValvePosition", "PumpSpeed", "FanSpeed",
     "DamperPosition", "AirTemperature",
     "AirDifferentialPressure", "AirRelativeHumidity",
     "AirFlow", "AirPressure", "LeakDetect", "GenericPoint"]

def cduMetadata : Channel :=
  metadataChannel "CDU"
    ["LiquidTemperature", "LiquidDifferentialPressure",
     "LiquidFlow", "LiquidPressure", "Status", "Available",
     "ValvePosition", "PumpSpeed", "FanSpeed",
     "DamperPosition", "AirTemperature",
     "AirDifferentialPressure", "AirRelativeHumidity",
     "AirFlow", "AirPressure", "LeakDetect",
     "LiquidTemperatureSpRequest", "GenericPoint"]
    [("liquidTemperature", "CDULiquidTemperatureMsg"),
     ("liquidDifferentialPressure", "CDULiquidDifferentialPressureMsg"),
     ("liquidFlow", "CDULiquidFlowMsg"),
     ("liquidPressure", "CDULiquidPressureMsg"),
     ("status", "CDUStatusMsg"),
     ("available", "CDUAvailableMsg"),
     ("valvePosition", "CDUValvePositionMsg"),
     ("pumpSpeed", "CDUPumpSpeedMsg"),
     ("fanSpeed", "CDUFanSpeedMsg"),
     ("damperPosition", "CDUDamperPositionMsg"),
     ("airTemperature", "CDUAirTemperatureMsg"),
     ("airDifferentialPressure", "CDUAirDifferentialPressureMsg"),
     ("airRelativeHumidity", "CDUAirRelativeHumidityMsg"),
     ("airFlow", "CDUAirFlowMsg"),
     ("airPressure", "CDUAirPressureMsg"),
     ("leakDetect", "CDULeakDetectMsg"),
     ("liquidTemperatureSpRequest", "LiquidTemperatureSpRequestMsg"),
     ("genericPoint", "GenericEquipmentPointMsg")]

def cduIntegrationValue : Channel :=
  integrationChannel "CDU"
    ["LiquidTemperatureSpRequest", "GenericPoint"]

def coolingTowerValue : Channel :=
  valueChannel "CoolingTower"
    ["LiquidTemperature", "LiquidDifferentialPressure",
     "LiquidFlow", "LiquidPressure", "Status", "Available",
     "ValvePosition", "PumpSpeed", "FanSpeed",
     "DamperPosition", "AirTemperature",
     "AirDifferentialPressure", "AirRelativeHumidity",
     "AirFlow", "AirPressure", "LeakDetect", "GenericPoint"]

def coolingTowerMetadata : Channel :=
  metadataChannel "CoolingTower"
    ["LiquidTemperature", "LiquidDifferentialPressure",
     "LiquidFlow", "LiquidPressure", "Status", "Available",
     "ValvePosition", "PumpSpeed", "FanSpeed",
     "DamperPosition", "AirTemperature",
     "AirDifferentialPressure", "AirRelativeHumidity",
     "AirFlow", "AirPressure", "LeakDetect", "GenericPoint"]
    [("liquidTemperature", "CoolingTowerLiquidTemperatureMsg"),
     ("liquidDifferentialPressure", "CoolingTowerLiquidDifferentialPressureMsg"),
     ("liquidFlow", "CoolingTowerLiquidFlowMsg"),
     ("liquidPressure", "CoolingTowerLiquidPressureMsg"),
     ("status", "CoolingTowerStatusMsg"),
     ("available", "CoolingTowerAvailableMsg"),
     ("valvePosition", "CoolingTowerValvePositionMsg"),
     ("pumpSpeed", "CoolingTowerPumpSpeedMsg"),
     ("fanSpeed", "CoolingTowerFanSpeedMsg"),
     ("damperPosition", "CoolingTowerDamperPositionMsg"),
     ("airTemperature", "CoolingTowerAirTemperatureMsg"),
     ("airDifferentialPressure", "CoolingTowerAirDifferentialPressureMsg"),
     ("airRelativeHumidity", "CoolingTowerAirRelativeHumidityMsg"),
     ("airFlow", "CoolingTowerAirFlowMsg"),
     ("airPressure", "CoolingTowerAirPressureMsg"),
     ("leakDetect", "CoolingTowerLeakDetectMsg"),
     ("genericPoint", "GenericEquipmentPointMsg")]

def coolingTowerIntegrationValue : Channel :=
  integrationChannel "CoolingTower"
    ["GenericPoint"]

def hxValue : Channel :=
  valueChannel "HX"
    ["LiquidTemperature", "LiquidDifferentialPressure",
     "LiquidFlow", "LiquidPressure", "Status", "Available",
     "ValvePosition", "PumpSpeed", "FanSpeed",
     "DamperPosition", "AirTemperature",
     "AirDifferentialPressure", "AirRelativeHumidity",
     "AirFlow", "AirPressure", "LeakDetect", "GenericPoint"]

def hxMetadata : Channel :=
  metadataChannel "HX"
    ["LiquidTemperature", "LiquidDifferentialPressure",
     "LiquidFlow", "LiquidPressure", "Status", "Available",
     "ValvePosition", "PumpSpeed", "FanSpeed",
     "DamperPosition", "AirTemperature",
     "AirDifferentialPressure", "AirRelativeHumidity",
     "AirFlow", "AirPressure", "LeakDetect", "GenericPoint"]
    [("liquidTemperature", "HXLiquidTemperatureMsg"),
     ("liquidDifferentialPressure", "HXLiquidDifferentialPressureMsg"),
     ("liquidFlow", "HXLiquidFlowMsg"),
     ("liquidPressure", "HXLiquidPressureMsg"),
     ("status", "HXStatusMsg"),
     ("available", "HXAvailableMsg"),
     ("valvePosition", "HXValvePositionMsg"),
     ("pumpSpeed", "HXPumpSpeedMsg"),
     ("fanSpeed", "HXFanSpeedMsg"),
     ("damperPosition", "HXDamperPositionMsg"),
     ("airTemperature", "HXAirTemperatureMsg"),
     ("airDifferentialPressure", "HXAirDifferentialPressureMsg"),
     ("airRelativeHumidity", "HXAirRelativeHumidityMsg"),
     ("airFlow", "HXAirFlowMsg"),
     ("airPressure", "HXAirPressureMsg"),
     ("leakDetect", "HXLeakDetectMsg"),
     ("genericPoint", "GenericEquipmentPointMsg")]

def hxIntegrationValue : Channel :=
  integrationChannel "HX"
    ["GenericPoint"]

def crahValue : Channel :=
  valueChannel "CRAH"
    ["LiquidTemperature", "LiquidDifferentialPressure",
     "LiquidFlow", "LiquidPressure", "Status", "Available",
     "ValvePosition", "PumpSpeed", "FanSpeed",
     "DamperPosition", "AirTemperature",
     "AirDifferentialPressure", "AirRelativeHumidity",
     "AirFlow", "AirPressure", "LeakDetect", "GenericPoint"]

def crahMetadata : Channel :=
  metadataChannel "CRAH"
    ["LiquidTemperature", "LiquidDifferentialPressure",
     "LiquidFlow", "LiquidPressure", "Status", "Available",
     "ValvePosition", "PumpSpeed", "FanSpeed",
     "DamperPosition", "AirTemperature",
     "AirDifferentialPressure", "AirRelativeHumidity",
     "AirFlow", "AirPressure", "LeakDetect", "GenericPoint"]
    [("liquidTemperature", "CRAHLiquidTemperatureMsg"),
     ("liquidDifferentialPressure", "CRAHLiquidDifferentialPressureMsg"),
     ("liquidFlow", "CRAHLiquidFlowMsg"),
     ("liquidPressure", "CRAHLiquidPressureMsg"),
     ("status", "CRAHStatusMsg"),
     ("available", "CRAHAvailableMsg"),
     ("valvePosition", "CRAHValvePositionMsg"),
     ("pumpSpeed", "CRAHPumpSpeedMsg"),
     ("fanSpeed", "CRAHFanSpeedMsg"),
     ("damperPosition", "CRAHDamperPositionMsg"),
     ("airTemperature", "CRAHAirTemperatureMsg"),
     ("airDifferentialPressure", "CRAHAirDifferentialPressureMsg"),
     ("airRelativeHumidity", "CRAHAirRelativeHumidityMsg"),
     ("airFlow", "CRAHAirFlowMsg"),
     ("airPressure", "CRAHAirPressureMsg"),
     ("leakDetect", "CRAHLeakDetectMsg"),
     ("genericPoint", "GenericEquipmentPointMsg")]

def crahIntegrationValue : Channel :=
  integrationChannel "CRAH"
    ["GenericPoint"]

def cracValue : Channel :=
  valueChannel "CRAC"
    ["LiquidTemperature", "LiquidDifferentialPressure",
     "LiquidFlow", "LiquidPressure", "Status", "Available",
     "ValvePosition", "PumpSpeed", "FanSpeed",
     "DamperPosition", "AirTemperature",
     "AirDifferentialPressure", "AirRelativeHumidity",
     "AirFlow", "AirPressure", "LeakDetect", "GenericPoint"]

def cracMetadata : Channel :=
  metadataChannel "CRAC"
    ["LiquidTemperature", "LiquidDifferentialPressure",
     "LiquidFlow", "LiquidPressure", "Status", "Available",
     "ValvePosition", "PumpSpeed", "FanSpeed",
     "DamperPosition", "AirTemperature",
     "AirDifferentialPressure", "AirRelativeHumidity",
     "AirFlow", "AirPressure", "LeakDetect", "GenericPoint"]
    [("liquidTemperature", "CRACLiquidTemperatureMsg"),
     ("liquidDifferentialPressure", "CRACLiquidDifferentialPressureMsg"),
     ("liquidFlow", "CRACLiquidFlowMsg"),
     ("liquidPressure", "CRACLiquidPressureMsg"),
     ("status", "CRACStatusMsg"),
     ("available", "CRACAvailableMsg"),
     ("valvePosition", "CRACValvePositionMsg"),
     ("pumpSpeed", "CRACPumpSpeedMsg"),
     ("fanSpeed", "CRACFanSpeedMsg"),
     ("damperPosition", "CRACDamperPositionMsg"),
     ("airTemperature", "CRACAirTemperatureMsg"),
     ("airDifferentialPressure", "CRACAirDifferentialPressureMsg"),
     ("airRelativeHumidity", "CRACAirRelativeHumidityMsg"),
     ("airFlow", "CRACAirFlowMsg"),
     ("airPressure", "CRACAirPressureMsg"),
     ("leakDetect", "CRACLeakDetectMsg"),
     ("genericPoint", "GenericEquipmentPointMsg")]

def cracIntegrationValue : Channel :=
  integrationChannel "CRAC"
    ["GenericPoint"]

def ahuValue : Channel :=
  valueChannel "AHU"
    ["LiquidTemperature", "LiquidDifferentialPressure",
     "LiquidFlow", "LiquidPressure", "Status", "Available",
     "ValvePosition", "PumpSpeed", "FanSpeed",
     "DamperPosition", "AirTemperature",
     "AirDifferentialPressure", "AirRelativeHumidity",
     "AirFlow", "AirPressure", "LeakDetect", "GenericPoint"]

def ahuMetadata : Channel :=
  metadataChannel "AHU"
    ["LiquidTemperature", "LiquidDifferentialPressure",
     "LiquidFlow", "LiquidPressure", "Status", "Available",
     "ValvePosition", "PumpSpeed", "FanSpeed",
     "DamperPosition", "AirTemperature",
     "AirDifferentialPressure", "AirRelativeHumidity",
     "AirFlow", "AirPressure", "LeakDetect", "GenericPoint"]
    [("liquidTemperature", "AHULiquidTemperatureMsg"),
     ("liquidDifferentialPressure", "AHULiquidDifferentialPressureMsg"),
     ("liquidFlow", "AHULiquidFlowMsg"),
     ("liquidPressure", "AHULiquidPressureMsg"),
     ("status", "AHUStatusMsg"),
     ("available", "AHUAvailableMsg"),
     ("valvePosition", "AHUValvePositionMsg"),
     ("pumpSpeed", "AHUPumpSpeedMsg"),
     ("fanSpeed", "AHUFanSpeedMsg"),
     ("damperPosition", "AHUDamperPositionMsg"),
     ("airTemperature", "AHUAirTemperatureMsg"),
     ("airDifferentialPressure", "AHUAirDifferentialPressureMsg"),
     ("airRelativeHumidity", "AHUAirRelativeHumidityMsg"),
     ("airFlow", "AHUAirFlowMsg"),
     ("airPressure", "AHUAirPressureMsg"),
     ("leakDetect", "AHULeakDetectMsg"),
     ("genericPoint", "GenericEquipmentPointMsg")]

def ahuIntegrationValue : Channel :=
  integrationChannel "AHU"
    ["GenericPoint"]

def chillerValue : Channel :=
  valueChannel "Chiller"
    ["LiquidTemperature", "LiquidDifferentialPressure",
     "LiquidFlow", "LiquidPressure", "Status", "Available",
     "ValvePosition", "PumpSpeed", "FanSpeed",
     "DamperPosition", "AirTemperature",
     "AirDifferentialPressure", "AirRelativeHumidity",
     "AirFlow", "AirPressure", "LeakDetect", "GenericPoint"]

def chillerMetadata : Channel :=
  metadataChannel "Chiller"
    ["LiquidTemperature", "LiquidDifferentialPressure",
     "LiquidFlow", "LiquidPressure", "Status", "Available",
     "ValvePosition", "PumpSpeed", "FanSpeed",
     "DamperPosition", "AirTemperature",
     "AirDifferentialPressure", "AirRelativeHumidity",
     "AirFlow", "AirPressure", "LeakDetect", "GenericPoint"]
    [("liquidTemperature", "ChillerLiquidTemperatureMsg"),
     ("liquidDifferentialPressure", "ChillerLiquidDifferentialPressureMsg"),
     ("liquidFlow", "ChillerLiquidFlowMsg"),
     ("liquidPressure", "ChillerLiquidPressureMsg"),
     ("status", "ChillerStatusMsg"),
     ("available", "ChillerAvailableMsg"),
     ("valvePosition", "ChillerValvePositionMsg"),
     ("pumpSpeed", "ChillerPumpSpeedMsg"),
     ("fanSpeed", "ChillerFanSpeedMsg"),
     ("damperPosition", "ChillerDamperPositionMsg"),
     ("airTemperature", "ChillerAirTemperatureMsg"),
     ("airDifferentialPressure", "ChillerAirDifferentialPressureMsg"),
     ("airRelativeHumidity", "ChillerAirRelativeHumidityMsg"),
     ("airFlow", "ChillerAirFlowMsg"),
     ("airPressure", "ChillerAirPressureMsg"),
     ("leakDetect", "ChillerLeakDetectMsg"),
     ("genericPoint", "GenericEquipmentPointMsg")]

def chillerIntegrationValue : Channel :=
  integrationChannel "Chiller"
    ["GenericPoint"]

def valveValue : Channel :=
  valueChannel "Valve"
    ["ValvePosition", "Available", "GenericPoint"]

def valveMetadata : Channel :=
  metadataChannel "Valve"
    ["ValvePosition", "Available", "GenericPoint"]
    [("valvePosition", "ValveValvePositionMsg"),
     ("available", "ValveAvailableMsg"),
     ("genericPoint", "GenericEquipmentPointMsg")]

def valveIntegrationValue : Channel :=
  integrationChannel "Valve"
    ["GenericPoint"]

def pumpValue : Channel :=
  valueChannel "Pump"
    ["PumpSpeed", "Available", "GenericPoint"]

def pumpMetadata : Channel :=
  metadataChannel "Pump"
    ["PumpSpeed", "Available", "GenericPoint"]
    [("pumpSpeed", "PumpPumpSpeedMsg"),
     ("available", "PumpAvailableMsg"),
     ("genericPoint", "GenericEquipmentPointMsg")]

def pumpIntegrationValue : Channel :=
  integrationChannel "Pump"
    ["GenericPoint"]

def fanValue : Channel :=
  valueChannel "Fan"
    ["FanSpeed", "Available", "GenericPoint"]

def fanMetadata : Channel :=
  metadataChannel "Fan"
    ["FanSpeed", "Available", "GenericPoint"]
    [("fanSpeed", "FanFanSpeedMsg"),
     ("available", "FanAvailableMsg"),
     ("genericPoint", "GenericEquipmentPointMsg")]

def fanIntegrationValue : Channel :=
  integrationChannel "Fan"
    ["GenericPoint"]

def damperValue : Channel :=
  valueChannel "Damper"
    ["DamperPosition", "Available", "GenericPoint"]

def damperMetadata : Channel :=
  metadataChannel "Damper"
    ["DamperPosition", "Available", "GenericPoint"]
    [("damperPosition", "DamperDamperPositionMsg"),
     ("available", "DamperAvailableMsg"),
     ("genericPoint", "GenericEquipmentPointMsg")]

def damperIntegrationValue : Channel :=
  integrationChannel "Damper"
    ["GenericPoint"]

def sensorValue : Channel :=
  valueChannel "Sensor"
    ["LiquidTemperature", "LiquidDifferentialPressure",
     "LiquidFlow", "LiquidPressure", "AirTemperature",
     "AirDifferentialPressure", "AirRelativeHumidity",
     "AirFlow", "AirPressure", "LeakDetect", "Sound",
     "Available", "GenericPoint"]

def sensorMetadata : Channel :=
  metadataChannel "Sensor"
    ["LiquidTemperature", "LiquidDifferentialPressure",
     "LiquidFlow", "LiquidPressure", "AirTemperature",
     "AirDifferentialPressure", "AirRelativeHumidity",
     "AirFlow", "AirPressure", "LeakDetect", "Sound",
     "Available", "GenericPoint"]
    [("liquidTemperature", "SensorLiquidTemperatureMsg"),
     ("liquidDifferentialPressure", "SensorLiquidDifferentialPressureMsg"),
     ("liquidFlow", "SensorLiquidFlowMsg"),
     ("liquidPressure", "SensorLiquidPressureMsg"),
     ("airTemperature", "SensorAirTemperatureMsg"),
     ("airDifferentialPressure", "SensorAirDifferentialPressureMsg"),
     ("airRelativeHumidity", "SensorAirRelativeHumidityMsg"),
     ("airFlow", "SensorAirFlowMsg"),
     ("airPressure", "SensorAirPressureMsg"),
     ("leakDetect", "SensorLeakDetectMsg"),
     ("available", "SensorAvailableMsg"),
     ("genericPoint", "GenericEquipmentPointMsg"),
     ("sound", "SensorSoundMsg")]

def sensorIntegrationValue : Channel :=
  integrationChannel "Sensor"
    ["GenericPoint"]

def tankValue : Channel :=
  valueChannel "Tank"
    ["LiquidTemperature", "LiquidDifferentialPressure",
     "LiquidFlow", "LiquidPressure", "Status", "Available",
     "ValvePosition", "PumpSpeed", "FanSpeed",
     "DamperPosition", "AirTemperature",
     "AirDifferentialPressure", "AirRelativeHumidity",
     "AirFlow", "AirPressure", "LeakDetect", "GenericPoint"]

def tankMetadata : Channel :=
  metadataChannel "Tank"
    ["LiquidTemperature", "LiquidDifferentialPressure",
     "LiquidFlow", "LiquidPressure", "Status", "Available",
     "ValvePosition", "PumpSpeed", "FanSpeed",
     "DamperPosition", "AirTemperature",
     "AirDifferentialPressure", "AirRelativeHumidity",
     "AirFlow", "AirPressure", "LeakDetect", "GenericPoint"]
    [("liquidTemperature", "TankLiquidTemperatureMsg"),
     ("liquidDifferentialPressure", "TankLiquidDifferentialPressureMsg"),
     ("liquidFlow", "TankLiquidFlowMsg"),
     ("liquidPressure", "TankLiquidPressureMsg"),
     ("status", "TankStatusMsg"),
     ("available", "TankAvailableMsg"),
     ("valvePosition", "TankValvePositionMsg"),
     ("pumpSpeed", "TankPumpSpeedMsg"),
     ("fanSpeed", "TankFanSpeedMsg"),
     ("damperPosition", "TankDamperPositionMsg"),
     ("airTemperature", "TankAirTemperatureMsg"),
     ("airDifferentialPressure", "TankAirDifferentialPressureMsg"),
     ("airRelativeHumidity", "TankAirRelativeHumidityMsg"),
     ("airFlow", "TankAirFlowMsg"),
     ("airPressure", "TankAirPressureMsg"),
     ("leakDetect", "TankLeakDetectMsg"),
     ("genericPoint", "GenericEquipmentPointMsg")]

def tankIntegrationValue : Channel :=
  integrationChannel "Tank"
    ["GenericPoint"]

def genericObjectValue : Channel :=
  valueChannel "GenericObject"
    ["LiquidTemperature", "LiquidDifferentialPressure",
     "LiquidFlow", "LiquidPressure", "Status", "Available",
     "ValvePosition", "PumpSpeed", "FanSpeed",
     "DamperPosition", "AirTemperature",
     "AirDifferentialPressure", "AirRelativeHumidity",
     "AirFlow", "AirPressure", "LeakDetect", "Sound",
     "GenericPoint"]

def genericObjectMetadata : Channel :=
  metadataChannel "GenericObject"
    ["LiquidTemperature", "LiquidDifferentialPressure",
     "LiquidFlow", "LiquidPressure", "Status", "Available",
     "ValvePosition", "PumpSpeed", "FanSpeed",
     "DamperPosition", "AirTemperature",
     "AirDifferentialPressure", "AirRelativeHumidity",
     "AirFlow", "AirPressure", "LeakDetect",
     "LiquidTemperatureSpRequest", "Sound", "GenericPoint"]
    [("liquidTemperature", "GenericObjectLiquidTemperatureMsg"),
     ("liquidDifferentialPressure", "GenericObjectLiquidDifferentialPressureMsg"),
     ("liquidFlow", "GenericObjectLiquidFlowMsg"),
     ("liquidPressure", "GenericObjectLiquidPressureMsg"),
     ("status", "GenericObjectStatusMsg"),
     ("available", "GenericObjectAvailableMsg"),
     ("valvePosition", "GenericObjectValvePositionMsg"),
     ("pumpSpeed", "GenericObjectPumpSpeedMsg"),
     ("fanSpeed", "GenericObjectFanSpeedMsg"),
     ("damperPosition", "GenericObjectDamperPositionMsg"),
     ("airTemperature", "GenericObjectAirTemperatureMsg"),
     ("airDifferentialPressure", "GenericObjectAirDifferentialPressureMsg"),
     ("airRelativeHumidity", "GenericObjectAirRelativeHumidityMsg"),
     ("airFlow", "GenericObjectAirFlowMsg"),
     ("airPressure", "GenericObjectAirPressureMsg"),
     ("leakDetect", "GenericObjectLeakDetectMsg"),
     ("liquidTemperatureSpRequest", "GenericObjectLiquidTemperatureSpRequestMsg"),
     ("sound", "GenericObjectSoundMsg"),
     ("genericPoint", "GenericEquipmentPointMsg")]

def genericObjectIntegrationValue : Channel :=
  integrationChannel "GenericObject"
    ["LiquidTemperatureSpRequest", "GenericPoint"]

def systemBmsValue : Channel :=
  valueChannel "System"
    ["HeartbeatTimestampBms", "HeartbeatEchoBms", "Status",
     "Available", "GenericPoint"]

def systemMetadata : Channel :=
  metadataChannel "System"
    ["HeartbeatTimestampBms", "HeartbeatEchoBms",
     "HeartbeatTimestampIntegration",
     "HeartbeatEchoIntegration", "Status", "Available",
     "GenericPoint"]
    [("heartbeatTimestampBms", "SystemHeartbeatTimestampBmsMsg"),
     ("heartbeatEchoBms", "SystemHeartbeatEchoBmsMsg"),
     ("heartbeatTimestampIntegration", "SystemHeartbeatTimestampIntegrationMsg"),
     ("heartbeatEchoIntegration", "SystemHeartbeatEchoIntegrationMsg"),
     ("status", "SystemStatusMsg"),
     ("available", "SystemAvailableMsg"),
     ("genericPoint", "GenericEquipmentPointMsg")]

def systemIntegrationValue : Channel :=
  integrationChannel "System"
    ["HeartbeatTimestampIntegration",
     "HeartbeatEchoIntegration", "Status", "Available",
     "GenericPoint"]

/- The channels of the document, by name. -/
def bmsChannels : List (String × Channel) :=
  [("rackBmsValue", rackBmsValue),
   ("rackMetadata", rackMetadata),
   ("rackIntegrationValue", rackIntegrationValue),
   ("powerMeterValue", powerMeterValue),
   ("powerMeterMetadata", powerMeterMetadata),
   ("powerMeterIntegrationValue", powerMeterIntegrationValue),
   ("bessValue", bessValue), ("bessMetadata", bessMetadata),
   ("bessIntegrationValue", bessIntegrationValue),
   ("upsValue", upsValue), ("upsMetadata", upsMetadata),
   ("upsIntegrationValue", upsIntegrationValue),
   ("atsValue", atsValue), ("atsMetadata", atsMetadata),
   ("atsIntegrationValue", atsIntegrationValue),
   ("generatorValue", generatorValue),
   ("generatorMetadata", generatorMetadata),
   ("generatorIntegrationValue", generatorIntegrationValue),
   ("shuntValue", shuntValue),
   ("shuntMetadata", shuntMetadata),
   ("shuntIntegrationValue", shuntIntegrationValue),
   ("breakerValue", breakerValue),
   ("breakerMetadata", breakerMetadata),
   ("breakerIntegrationValue", breakerIntegrationValue),
   ("cduValue", cduValue), ("cduMetadata", cduMetadata),
   ("cduIntegrationValue", cduIntegrationValue),
   ("coolingTowerValue", coolingTowerValue),
   ("coolingTowerMetadata", coolingTowerMetadata),
   ("coolingTowerIntegrationValue", coolingTowerIntegrationValue),
   ("hxValue", hxValue), ("hxMetadata", hxMetadata),
   ("hxIntegrationValue", hxIntegrationValue),
   ("crahValue", crahValue), ("crahMetadata", crahMetadata),
   ("crahIntegrationValue", crahIntegrationValue),
   ("cracValue", cracValue), ("cracMetadata", cracMetadata),
   ("cracIntegrationValue", cracIntegrationValue),
   ("ahuValue", ahuValue), ("ahuMetadata", ahuMetadata),
   ("ahuIntegrationValue", ahuIntegrationValue),
   ("chillerValue", chillerValue),
   ("chillerMetadata", chillerMetadata),
   ("chillerIntegrationValue", chillerIntegrationValue),
   ("valveValue", valveValue),
   ("valveMetadata", valveMetadata),
   ("valveIntegrationValue", valveIntegrationValue),
   ("pumpValue", pumpValue), ("pumpMetadata", pumpMetadata),
   ("pumpIntegrationValue", pumpIntegrationValue),
   ("fanValue", fanValue), ("fanMetadata", fanMetadata),
   ("fanIntegrationValue", fanIntegrationValue),
   ("damperValue", damperValue),
   ("damperMetadata", damperMetadata),
   ("damperIntegrationValue", damperIntegrationValue),
   ("sensorValue", sensorValue),
   ("sensorMetadata", sensorMetadata),
   ("sensorIntegrationValue", sensorIntegrationValue),
   ("tankValue", tankValue), ("tankMetadata", tankMetadata),
   ("tankIntegrationValue", tankIntegrationValue),
   ("genericObjectValue", genericObjectValue),
   ("genericObjectMetadata", genericObjectMetadata),
   ("genericObjectIntegrationValue", genericObjectIntegrationValue),
   ("systemBmsValue", systemBmsValue),
   ("systemMetadata", systemMetadata),
   ("systemIntegrationValue", systemIntegrationValue)]

/-
  The document. The rest of it, among which the components,
  is only read by the compiler of the schemas.
-/
def bmsDocument (rest : List (String × Go.Any)) :
    Go.Map Go.Any :=
  mapOf
    (("channels", .map
      (bmsChannels.map (fun c => (c.1, .map c.2.fields)))) ::
        rest)

end DummyBms

------------------------------------------------------------
-- What The Validator Reads
------------------------------------------------------------

namespace DummyBms

open Go (Any)

namespace Channel

variable {c : Channel}

/- The channel, as the validator finds it. -/
def object (c : Channel) : Go.Map Any :=
  mapOf c.fields

@[simp] theorem stringField_address (c : Channel) :
    stringField c.object "address" = some c.address := by
  simp [stringField, object, fields, asString]

@[simp] theorem mapField_parameters (c : Channel) :
    mapField c.object "parameters" =
      some (mapOf c.parameters) := by
  simp [mapField, object, fields, asMap]

/- The only values that are declared are the point types. -/
theorem declaredEnum_iff
    {name : String}
    {enumValues : List Any} :
    DeclaredEnum c.object name enumValues ↔
      name = "pointType" ∧
        enumValues = c.pointTypes.map .string := by
  have hPointType :
      mapField (mapOf c.parameters) "pointType" =
        some (mapOf
          [("enum", .slice (c.pointTypes.map .string))]) := by
    unfold mapField parameters
    cases c.kind <;> simp [asMap]
  have hOther :
      ∀ parameter, name ≠ "pointType" →
        mapField (mapOf c.parameters) name =
            some parameter →
          sliceField parameter "enum" = none := by
    intro parameter hName hFound
    rcases Option.bind_eq_some_iff.mp hFound with
      ⟨node, hNode, hMap⟩
    have hMem := mem_of_lookup_mapOf hNode
    have hEmpty : node = .map [] := by
      unfold parameters at hMem
      split at hMem <;> grind
    subst hEmpty
    cases hMap
    rfl
  constructor
  · rintro ⟨parameters, parameter, hSome, hParameter, hEnum⟩
    rw [mapField_parameters] at hSome
    cases hSome
    by_cases hName : name = "pointType"
    · subst hName
      rw [hPointType] at hParameter
      cases hParameter
      simpa [sliceField, asSlice, eq_comm] using hEnum
    · rw [hOther parameter hName hParameter] at hEnum
      cases hEnum
  · rintro ⟨rfl, rfl⟩
    exact ⟨_, _, c.mapField_parameters, hPointType,
      by simp [sliceField, asSlice]⟩

end Channel

theorem nodup_names_bmsChannels :
    (bmsChannels.map Prod.fst).Nodup := by
  decide +kernel

/- The channels of the document are those listed. -/
theorem mem_channels_bmsDocument_iff
    {rest : List (String × Any)}
    {name : String}
    {channel : Go.Map Any} :
    (∃ channels,
      mapField (bmsDocument rest) "channels" =
          some channels ∧
        mapField channels name = some channel) ↔
      ∃ c, (name, c) ∈ bmsChannels ∧ channel = c.object := by
  have hChannels :
      mapField (bmsDocument rest) "channels" =
        some (mapOf (bmsChannels.map
          (fun c => (c.1, .map c.2.fields)))) := by
    simp [mapField, bmsDocument, asMap]
  constructor
  · rintro ⟨channels, hSome, hChannel⟩
    rw [hChannels] at hSome
    cases hSome
    rcases Option.bind_eq_some_iff.mp hChannel with
      ⟨node, hNode, hMap⟩
    rcases List.mem_map.mp (mem_of_lookup_mapOf hNode) with
      ⟨⟨other, c⟩, hMem, hSame⟩
    cases hSame
    cases hMap
    exact ⟨c, hMem, rfl⟩
  · rintro ⟨c, hMem, rfl⟩
    refine ⟨_, hChannels, ?_⟩
    have hNode :
        (mapOf (bmsChannels.map
            (fun c => (c.1, .map c.2.fields)))).lookup
              name =
          some (.map c.fields) := by
      apply lookup_mapOf_of_mem
      · rw [List.map_map]
        exact nodup_names_bmsChannels
      · exact List.mem_map_of_mem
          (f := fun c : String × Channel =>
            (c.1, Any.map c.2.fields)) hMem
    rw [mapField, hNode]
    rfl

end DummyBms
