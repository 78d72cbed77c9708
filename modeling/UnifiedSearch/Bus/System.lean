import UnifiedSearch.Lib.Handles
import UnifiedSearch.Lib.Runs
import UnifiedSearch.Bus.Methods
import UnifiedSearch.Bus.Sam
import UnifiedSearch.Bus.SettingService
import UnifiedSearch.Core.LunaClient
import UnifiedSearch.Media.MediaPlugin

/-!
# The running service

`SAM` and `SettingService` with what they share with the bus and the main loop:
whether each of the two services is up, the handle of the subscription, the
timeouts that have been added, and the files. The main loop takes the events one
at a time, in any order, so a run is a list of them; the files change between
them, when an application is installed or updated.
-/

namespace UnifiedSearch

open Lib

/-- The clients that hold a subscription. -/
inductive Subscriber where
  | sam
  | settingService
deriving DecidableEq

instance : Inhabited Subscriber := ⟨.sam⟩

instance : Inhabited BusCall := ⟨⟨"", "", false⟩⟩

/-- `LunaClient::getName` -/
def Subscriber.getName : Subscriber → String
  | .sam => "com.webos.applicationManager"
  | .settingService => "com.webos.settingsservice"

/-- The call of `onServerStatusChanged`. -/
def Subscriber.subscription (env : Env) : Subscriber → BusCall
  | .sam => {
    method := "luna://" ++ Subscriber.sam.getName ++ "/listApps"
    payload := env.stringify (JValue.object.put "subscribe" (.bool true))
    multiReply := true }
  | .settingService => {
    method := "luna://" ++ Subscriber.settingService.getName ++ "/getSystemSettings"
    payload := env.stringify
      ((JValue.object.put "subscribe" (.bool true)).put "key" (.str "localeInfo"))
    multiReply := true }

structure System where
  service : Service
  sam : Sam
  settingService : SettingService := {}
  isConnected : Subscriber → Bool := fun _ => false
  /-- `m_listAppsCall` and `m_getSystemSettingsCall` are the slots. -/
  calls : Handles Subscriber BusCall := .empty
  /-- The timeouts of `updateLocaleInfo` that have not expired. -/
  timeouts : ℕ := 0
  /-- The files as they are now. -/
  files : Files

inductive SystemEvent where
  /-- A message of `registerServerStatus`. -/
  | serverStatus (client : Subscriber) (payload : JValue)
  /-- The bus delivers a message of a subscription. -/
  | message (handle : ℕ) (payload : JValue)
  | timeout
  | updateCategory (requestPayload : JValue)
  /-- Files are written or removed. -/
  | files (files : Files)

namespace System

variable (env : Env) (s : System)

/-- `SAM::onServerStatusChanged` and `SettingService::onServerStatusChanged` -/
def onServerStatusChanged (client : Subscriber) (isConnected : Bool) : System :=
  { s with calls :=
      if isConnected then s.calls.assign env.assignEnds client (client.subscription env)
      else s.calls.cancel client }

/-- `LunaClient::_onServerStatus` -/
def onServerStatus (client : Subscriber) (payload : JValue) : System :=
  match payload.get "connected" with
  | some (.bool connected) =>
    { s with isConnected := Function.update s.isConnected client connected }.onServerStatusChanged
      env client connected
  | _ => s

/-- `SAM::reloadAppsByLocaleChange` -/
def reloadAppsByLocaleChange : Bool × System :=
  if !s.isConnected .sam then (false, s) else
  -- resubscribe
  (true, { s with calls := s.calls.cancel .sam }.onServerStatusChanged env .sam true)

/-- `SettingService::onLocaleChanged`; `language()` is read where the service needs it. -/
def onLocaleChanged (payload : JValue) : System :=
  let (reload, settingService) := s.settingService.onLocaleChanged payload
  { s with
    settingService
    service := { s.service with language := settingService.language }
    timeouts := if reload then s.timeouts + 1 else s.timeouts }

/-- The callback of a subscription; its context is the client. -/
def onMessage (payload : JValue) : Subscriber → System
  | .sam => { s with service := Sam.onListApps (env.reading s.files) s.sam s.service payload }
  | .settingService => s.onLocaleChanged payload

/-- Nothing is delivered for a call that has been cancelled. -/
def deliver (handle : ℕ) (payload : JValue) : System :=
  let call := s.calls.handles.cell handle
  if call.live then s.onMessage env payload call.owner else s

/-- A timeout expires; its callback returns false, so it does not come again. -/
def timeout : System :=
  if s.timeouts = 0 then s else
  ({ s with timeouts := s.timeouts - 1 }.reloadAppsByLocaleChange env).2

def step : SystemEvent → System
  | .serverStatus client payload => s.onServerStatus env client payload
  | .message handle payload => s.deliver env handle payload
  | .timeout => s.timeout env
  | .updateCategory requestPayload =>
    { s with service := (Bus.updateCategory env s.service requestPayload).2 }
  | .files files => { s with files }

/-- What `MainDaemon::initialize` leaves over an open database, with the media plugin in the plugin
folder. The files are those of `env` until they change. -/
def initial (db : Db) : System :=
  let (sam, w) := Sam.onInitialized env (.start db "")
  let (media, w) := MediaPlugin.make env w
  { service := (w.addSearchSet env media).2, sam, files := env.fromFile }

end System

end UnifiedSearch
