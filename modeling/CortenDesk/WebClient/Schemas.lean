import CortenDesk.Lib.Protobuf

/-!
The messages of a session and of the rendezvous server, as the generated codecs write and read
them. An enumeration is its number, and one that the schema does not know stays what it was.
-/
namespace CortenDesk
namespace WebClient
open Protobuf

inductive MessageType
  | encodedVideoFrame
  | encodedVideoFrames
  | rgb
  | yuv
  | videoFrame
  | idPk
  | displayInfo
  | portForward
  | fileTransfer
  | viewCamera
  | osLogin
  | loginRequest
  | terminal
  | auth2FA
  | chatMessage
  | features
  | codecAbility
  | supportedEncoding
  | peerInfo
  | windowsSession
  | loginResponse
  | touchScaleUpdate
  | touchPanStart
  | touchPanUpdate
  | touchPanEnd
  | touchEvent
  | pointerDeviceEvent
  | mouseEvent
  | keyEvent
  | cursorData
  | cursorPosition
  | hash
  | clipboard
  | multiClipboards
  | fileEntry
  | fileDirectory
  | readDir
  | readEmptyDirs
  | readEmptyDirsResponse
  | readAllFiles
  | fileRename
  | fileAction
  | fileTransferCancel
  | fileResponse
  | fileTransferDigest
  | fileTransferBlock
  | fileTransferError
  | fileTransferSendRequest
  | fileTransferSendConfirmRequest
  | fileTransferDone
  | fileTransferReceiveRequest
  | fileRemoveDir
  | fileRemoveFile
  | fileDirCreate
  | cliprdrMonitorReady
  | cliprdrFormat
  | cliprdrServerFormatList
  | cliprdrServerFormatListResponse
  | cliprdrServerFormatDataRequest
  | cliprdrServerFormatDataResponse
  | cliprdrFileContentsRequest
  | cliprdrFileContentsResponse
  | cliprdrTryEmpty
  | cliprdrFile
  | cliprdrFiles
  | cliprdr
  | resolution
  | displayResolution
  | supportedResolutions
  | switchDisplay
  | captureDisplays
  | toggleVirtualDisplay
  | togglePrivacyMode
  | permissionInfo
  | supportedDecoding
  | optionMessage
  | testDelay
  | publicKey
  | signedId
  | audioFormat
  | audioFrame
  | messageBox
  | backNotification
  | elevationRequestWithLogon
  | elevationRequest
  | switchSidesRequest
  | switchSidesResponse
  | switchBack
  | pluginRequest
  | pluginFailure
  | windowsSessions
  | messageQuery
  | misc
  | voiceCallRequest
  | voiceCallResponse
  | screenshotRequest
  | screenshotResponse
  | openTerminal
  | resizeTerminal
  | terminalData
  | closeTerminal
  | terminalAction
  | terminalOpened
  | terminalClosed
  | terminalError
  | terminalResponse
  | message
  deriving DecidableEq

/-- The slots of a message, in the order in which its writer goes through them. -/
def MessageType.slots : MessageType → List (Slot MessageType)
  | .encodedVideoFrame => [.plain "data" 1 .bytes, .plain "key" 2 .bool, .plain "pts" 3 .int64]
  | .encodedVideoFrames => [.repeated "frames" 1 (.message .encodedVideoFrame)]
  | .rgb => [.plain "compress" 1 .bool]
  | .yuv => [.plain "compress" 1 .bool, .plain "stride" 2 .int32]
  | .videoFrame => [
      .oneof "union" [⟨"vp9s", 6, .message .encodedVideoFrames⟩, ⟨"rgb", 7, .message .rgb⟩,
        ⟨"yuv", 8, .message .yuv⟩, ⟨"h264s", 10, .message .encodedVideoFrames⟩,
        ⟨"h265s", 11, .message .encodedVideoFrames⟩, ⟨"vp8s", 12, .message .encodedVideoFrames⟩,
        ⟨"av1s", 13, .message .encodedVideoFrames⟩],
      .plain "display" 14 .int32]
  | .idPk => [.plain "id" 1 .string, .plain "pk" 2 .bytes]
  | .displayInfo => [
      .plain "x" 1 .sint32, .plain "y" 2 .sint32, .plain "width" 3 .int32,
      .plain "height" 4 .int32, .plain "name" 5 .string, .plain "online" 6 .bool,
      .plain "cursor_embedded" 7 .bool, .message "original_resolution" 8 .resolution,
      .plain "scale" 9 .double]
  | .portForward => [.plain "host" 1 .string, .plain "port" 2 .int32]
  | .fileTransfer => [.plain "dir" 1 .string, .plain "show_hidden" 2 .bool]
  | .viewCamera => []
  | .osLogin => [.plain "username" 1 .string, .plain "password" 2 .string]
  | .loginRequest => [
      .plain "username" 1 .string, .plain "password" 2 .bytes, .plain "my_id" 4 .string,
      .plain "my_name" 5 .string, .message "option" 6 .optionMessage,
      .oneof "union" [⟨"file_transfer", 7, .message .fileTransfer⟩,
        ⟨"port_forward", 8, .message .portForward⟩, ⟨"view_camera", 15, .message .viewCamera⟩,
        ⟨"terminal", 16, .message .terminal⟩],
      .plain "video_ack_required" 9 .bool, .plain "session_id" 10 .uint64,
      .plain "version" 11 .string, .message "os_login" 12 .osLogin,
      .plain "my_platform" 13 .string, .plain "hwid" 14 .bytes, .plain "avatar" 17 .string]
  | .terminal => [.plain "service_id" 1 .string]
  | .auth2FA => [.plain "code" 1 .string, .plain "hwid" 2 .bytes]
  | .chatMessage => [.plain "text" 1 .string]
  | .features => [.plain "privacy_mode" 1 .bool, .plain "terminal" 2 .bool]
  | .codecAbility => [
      .plain "vp8" 1 .bool, .plain "vp9" 2 .bool, .plain "av1" 3 .bool, .plain "h264" 4 .bool,
      .plain "h265" 5 .bool]
  | .supportedEncoding => [
      .plain "h264" 1 .bool, .plain "h265" 2 .bool, .plain "vp8" 3 .bool, .plain "av1" 4 .bool,
      .message "i444" 5 .codecAbility]
  | .peerInfo => [
      .plain "username" 1 .string, .plain "hostname" 2 .string, .plain "platform" 3 .string,
      .repeated "displays" 4 (.message .displayInfo), .plain "current_display" 5 .int32,
      .plain "sas_enabled" 6 .bool, .plain "version" 7 .string, .message "features" 9 .features,
      .message "encoding" 10 .supportedEncoding, .message "resolutions" 11 .supportedResolutions,
      .plain "platform_additions" 12 .string, .message "windows_sessions" 13 .windowsSessions]
  | .windowsSession => [.plain "sid" 1 .uint32, .plain "name" 2 .string]
  | .loginResponse => [
      .oneof "union" [⟨"error", 1, .scalar .string⟩, ⟨"peer_info", 2, .message .peerInfo⟩],
      .plain "enable_trusted_devices" 3 .bool]
  | .touchScaleUpdate => [.plain "scale" 1 .int32]
  | .touchPanStart => [.plain "x" 1 .int32, .plain "y" 2 .int32]
  | .touchPanUpdate => [.plain "x" 1 .int32, .plain "y" 2 .int32]
  | .touchPanEnd => [.plain "x" 1 .int32, .plain "y" 2 .int32]
  | .touchEvent => [
      .oneof "union" [⟨"scale_update", 1, .message .touchScaleUpdate⟩,
        ⟨"pan_start", 2, .message .touchPanStart⟩, ⟨"pan_update", 3, .message .touchPanUpdate⟩,
        ⟨"pan_end", 4, .message .touchPanEnd⟩]]
  | .pointerDeviceEvent => [
      .oneof "union" [⟨"touch_event", 1, .message .touchEvent⟩],
      .packed "modifiers" 2 .int32 rfl]
  | .mouseEvent => [
      .plain "mask" 1 .int32, .plain "x" 2 .sint32, .plain "y" 3 .sint32,
      .packed "modifiers" 4 .int32 rfl]
  | .keyEvent => [
      .plain "down" 1 .bool, .plain "press" 2 .bool,
      .oneof "union" [⟨"control_key", 3, .scalar .int32⟩, ⟨"chr", 4, .scalar .uint32⟩,
        ⟨"unicode", 5, .scalar .uint32⟩, ⟨"seq", 6, .scalar .string⟩,
        ⟨"win2win_hotkey", 7, .scalar .uint32⟩],
      .packed "modifiers" 8 .int32 rfl, .plain "mode" 9 .int32]
  | .cursorData => [
      .plain "id" 1 .uint64, .plain "hotx" 2 .sint32, .plain "hoty" 3 .sint32,
      .plain "width" 4 .int32, .plain "height" 5 .int32, .plain "colors" 6 .bytes]
  | .cursorPosition => [.plain "x" 1 .sint32, .plain "y" 2 .sint32]
  | .hash => [.plain "salt" 1 .string, .plain "challenge" 2 .string]
  | .clipboard => [
      .plain "compress" 1 .bool, .plain "content" 2 .bytes, .plain "width" 3 .int32,
      .plain "height" 4 .int32, .plain "format" 5 .int32, .plain "special_name" 6 .string]
  | .multiClipboards => [.repeated "clipboards" 1 (.message .clipboard)]
  | .fileEntry => [
      .plain "entry_type" 1 .int32, .plain "name" 2 .string, .plain "is_hidden" 3 .bool,
      .plain "size" 4 .uint64, .plain "modified_time" 5 .uint64]
  | .fileDirectory => [
      .plain "id" 1 .int32, .plain "path" 2 .string, .repeated "entries" 3 (.message .fileEntry)]
  | .readDir => [.plain "path" 1 .string, .plain "include_hidden" 2 .bool]
  | .readEmptyDirs => [.plain "path" 1 .string, .plain "include_hidden" 2 .bool]
  | .readEmptyDirsResponse => [
      .plain "path" 1 .string, .repeated "empty_dirs" 2 (.message .fileDirectory)]
  | .readAllFiles => [
      .plain "id" 1 .int32, .plain "path" 2 .string, .plain "include_hidden" 3 .bool]
  | .fileRename => [.plain "id" 1 .int32, .plain "path" 2 .string, .plain "new_name" 3 .string]
  | .fileAction => [
      .oneof "union" [⟨"read_dir", 1, .message .readDir⟩,
        ⟨"send", 2, .message .fileTransferSendRequest⟩,
        ⟨"receive", 3, .message .fileTransferReceiveRequest⟩,
        ⟨"create", 4, .message .fileDirCreate⟩, ⟨"remove_dir", 5, .message .fileRemoveDir⟩,
        ⟨"remove_file", 6, .message .fileRemoveFile⟩, ⟨"all_files", 7, .message .readAllFiles⟩,
        ⟨"cancel", 8, .message .fileTransferCancel⟩,
        ⟨"send_confirm", 9, .message .fileTransferSendConfirmRequest⟩,
        ⟨"rename", 10, .message .fileRename⟩, ⟨"read_empty_dirs", 11, .message .readEmptyDirs⟩]]
  | .fileTransferCancel => [.plain "id" 1 .int32]
  | .fileResponse => [
      .oneof "union" [⟨"dir", 1, .message .fileDirectory⟩,
        ⟨"block", 2, .message .fileTransferBlock⟩, ⟨"error", 3, .message .fileTransferError⟩,
        ⟨"done", 4, .message .fileTransferDone⟩, ⟨"digest", 5, .message .fileTransferDigest⟩,
        ⟨"empty_dirs", 6, .message .readEmptyDirsResponse⟩]]
  | .fileTransferDigest => [
      .plain "id" 1 .int32, .plain "file_num" 2 .sint32, .plain "last_modified" 3 .uint64,
      .plain "file_size" 4 .uint64, .plain "is_upload" 5 .bool, .plain "is_identical" 6 .bool,
      .plain "transferred_size" 7 .uint64, .plain "is_resume" 8 .bool]
  | .fileTransferBlock => [
      .plain "id" 1 .int32, .plain "file_num" 2 .sint32, .plain "data" 3 .bytes,
      .plain "compressed" 4 .bool, .plain "blk_id" 5 .uint32]
  | .fileTransferError => [
      .plain "id" 1 .int32, .plain "error" 2 .string, .plain "file_num" 3 .sint32]
  | .fileTransferSendRequest => [
      .plain "id" 1 .int32, .plain "path" 2 .string, .plain "include_hidden" 3 .bool,
      .plain "file_num" 4 .int32, .plain "file_type" 5 .int32]
  | .fileTransferSendConfirmRequest => [
      .plain "id" 1 .int32, .plain "file_num" 2 .sint32,
      .oneof "union" [⟨"skip", 3, .scalar .bool⟩, ⟨"offset_blk", 4, .scalar .uint32⟩]]
  | .fileTransferDone => [.plain "id" 1 .int32, .plain "file_num" 2 .sint32]
  | .fileTransferReceiveRequest => [
      .plain "id" 1 .int32, .plain "path" 2 .string, .repeated "files" 3 (.message .fileEntry),
      .plain "file_num" 4 .int32, .plain "total_size" 5 .uint64]
  | .fileRemoveDir => [.plain "id" 1 .int32, .plain "path" 2 .string, .plain "recursive" 3 .bool]
  | .fileRemoveFile => [
      .plain "id" 1 .int32, .plain "path" 2 .string, .plain "file_num" 3 .sint32]
  | .fileDirCreate => [.plain "id" 1 .int32, .plain "path" 2 .string]
  | .cliprdrMonitorReady => []
  | .cliprdrFormat => [.plain "id" 2 .int32, .plain "format" 3 .string]
  | .cliprdrServerFormatList => [.repeated "formats" 2 (.message .cliprdrFormat)]
  | .cliprdrServerFormatListResponse => [.plain "msg_flags" 2 .int32]
  | .cliprdrServerFormatDataRequest => [.plain "requested_format_id" 2 .int32]
  | .cliprdrServerFormatDataResponse => [
      .plain "msg_flags" 2 .int32, .plain "format_data" 3 .bytes]
  | .cliprdrFileContentsRequest => [
      .plain "stream_id" 2 .int32, .plain "list_index" 3 .int32, .plain "dw_flags" 4 .int32,
      .plain "n_position_low" 5 .int32, .plain "n_position_high" 6 .int32,
      .plain "cb_requested" 7 .int32, .plain "have_clip_data_id" 8 .bool,
      .plain "clip_data_id" 9 .int32]
  | .cliprdrFileContentsResponse => [
      .plain "msg_flags" 3 .int32, .plain "stream_id" 4 .int32, .plain "requested_data" 5 .bytes]
  | .cliprdrTryEmpty => []
  | .cliprdrFile => [.plain "name" 1 .string, .plain "size" 2 .uint64]
  | .cliprdrFiles => [.repeated "files" 1 (.message .cliprdrFile)]
  | .cliprdr => [
      .oneof "union" [⟨"ready", 1, .message .cliprdrMonitorReady⟩,
        ⟨"format_list", 2, .message .cliprdrServerFormatList⟩,
        ⟨"format_list_response", 3, .message .cliprdrServerFormatListResponse⟩,
        ⟨"format_data_request", 4, .message .cliprdrServerFormatDataRequest⟩,
        ⟨"format_data_response", 5, .message .cliprdrServerFormatDataResponse⟩,
        ⟨"file_contents_request", 6, .message .cliprdrFileContentsRequest⟩,
        ⟨"file_contents_response", 7, .message .cliprdrFileContentsResponse⟩,
        ⟨"try_empty", 8, .message .cliprdrTryEmpty⟩, ⟨"files", 9, .message .cliprdrFiles⟩]]
  | .resolution => [.plain "width" 1 .int32, .plain "height" 2 .int32]
  | .displayResolution => [.plain "display" 1 .int32, .message "resolution" 2 .resolution]
  | .supportedResolutions => [.repeated "resolutions" 1 (.message .resolution)]
  | .switchDisplay => [
      .plain "display" 1 .int32, .plain "x" 2 .sint32, .plain "y" 3 .sint32,
      .plain "width" 4 .int32, .plain "height" 5 .int32, .plain "cursor_embedded" 6 .bool,
      .message "resolutions" 7 .supportedResolutions,
      .message "original_resolution" 8 .resolution]
  | .captureDisplays => [
      .packed "add" 1 .int32 rfl, .packed "sub" 2 .int32 rfl, .packed "set" 3 .int32 rfl]
  | .toggleVirtualDisplay => [.plain "display" 1 .int32, .plain "on" 2 .bool]
  | .togglePrivacyMode => [.plain "impl_key" 1 .string, .plain "on" 2 .bool]
  | .permissionInfo => [.plain "permission" 1 .int32, .plain "enabled" 2 .bool]
  | .supportedDecoding => [
      .plain "ability_vp9" 1 .int32, .plain "ability_h264" 2 .int32,
      .plain "ability_h265" 3 .int32, .plain "prefer" 4 .int32, .plain "ability_vp8" 5 .int32,
      .plain "ability_av1" 6 .int32, .message "i444" 7 .codecAbility,
      .plain "prefer_chroma" 8 .int32]
  | .optionMessage => [
      .plain "image_quality" 1 .int32, .plain "lock_after_session_end" 2 .int32,
      .plain "show_remote_cursor" 3 .int32, .plain "privacy_mode" 4 .int32,
      .plain "block_input" 5 .int32, .plain "custom_image_quality" 6 .int32,
      .plain "disable_audio" 7 .int32, .plain "disable_clipboard" 8 .int32,
      .plain "enable_file_transfer" 9 .int32,
      .message "supported_decoding" 10 .supportedDecoding, .plain "custom_fps" 11 .int32,
      .plain "disable_keyboard" 12 .int32, .plain "follow_remote_cursor" 15 .int32,
      .plain "follow_remote_window" 16 .int32, .plain "disable_camera" 17 .int32,
      .plain "terminal_persistent" 18 .int32, .plain "show_my_cursor" 19 .int32]
  | .testDelay => [
      .plain "time" 1 .int64, .plain "from_client" 2 .bool, .plain "last_delay" 3 .uint32,
      .plain "target_bitrate" 4 .uint32]
  | .publicKey => [.plain "asymmetric_value" 1 .bytes, .plain "symmetric_value" 2 .bytes]
  | .signedId => [.plain "id" 1 .bytes]
  | .audioFormat => [.plain "sample_rate" 1 .uint32, .plain "channels" 2 .uint32]
  | .audioFrame => [.plain "data" 1 .bytes]
  | .messageBox => [
      .plain "msgtype" 1 .string, .plain "title" 2 .string, .plain "text" 3 .string,
      .plain "link" 4 .string]
  | .backNotification => [
      .oneof "union" [⟨"privacy_mode_state", 1, .scalar .int32⟩,
        ⟨"block_input_state", 2, .scalar .int32⟩],
      .plain "details" 3 .string, .plain "impl_key" 4 .string]
  | .elevationRequestWithLogon => [.plain "username" 1 .string, .plain "password" 2 .string]
  | .elevationRequest => [
      .oneof "union" [⟨"direct", 1, .scalar .bool⟩,
        ⟨"logon", 2, .message .elevationRequestWithLogon⟩]]
  | .switchSidesRequest => [.plain "uuid" 1 .bytes]
  | .switchSidesResponse => [.plain "uuid" 1 .bytes, .message "lr" 2 .loginRequest]
  | .switchBack => []
  | .pluginRequest => [.plain "id" 1 .string, .plain "content" 2 .bytes]
  | .pluginFailure => [.plain "id" 1 .string, .plain "name" 2 .string, .plain "msg" 3 .string]
  | .windowsSessions => [
      .repeated "sessions" 1 (.message .windowsSession), .plain "current_sid" 2 .uint32]
  | .messageQuery => [.plain "switch_display" 1 .int32]
  | .misc => [
      .oneof "union" [⟨"chat_message", 4, .message .chatMessage⟩,
        ⟨"switch_display", 5, .message .switchDisplay⟩,
        ⟨"permission_info", 6, .message .permissionInfo⟩, ⟨"option", 7, .message .optionMessage⟩,
        ⟨"audio_format", 8, .message .audioFormat⟩, ⟨"close_reason", 9, .scalar .string⟩,
        ⟨"refresh_video", 10, .scalar .bool⟩, ⟨"video_received", 12, .scalar .bool⟩,
        ⟨"back_notification", 13, .message .backNotification⟩,
        ⟨"restart_remote_device", 14, .scalar .bool⟩, ⟨"uac", 15, .scalar .bool⟩,
        ⟨"foreground_window_elevated", 16, .scalar .bool⟩, ⟨"stop_service", 17, .scalar .bool⟩,
        ⟨"elevation_request", 18, .message .elevationRequest⟩,
        ⟨"elevation_response", 19, .scalar .string⟩,
        ⟨"portable_service_running", 20, .scalar .bool⟩,
        ⟨"switch_sides_request", 21, .message .switchSidesRequest⟩,
        ⟨"switch_back", 22, .message .switchBack⟩,
        ⟨"change_resolution", 24, .message .resolution⟩,
        ⟨"plugin_request", 25, .message .pluginRequest⟩,
        ⟨"plugin_failure", 26, .message .pluginFailure⟩, ⟨"full_speed_fps", 27, .scalar .uint32⟩,
        ⟨"auto_adjust_fps", 28, .scalar .uint32⟩, ⟨"client_record_status", 29, .scalar .bool⟩,
        ⟨"capture_displays", 30, .message .captureDisplays⟩,
        ⟨"refresh_video_display", 31, .scalar .int32⟩,
        ⟨"toggle_virtual_display", 32, .message .toggleVirtualDisplay⟩,
        ⟨"toggle_privacy_mode", 33, .message .togglePrivacyMode⟩,
        ⟨"supported_encoding", 34, .message .supportedEncoding⟩,
        ⟨"selected_sid", 35, .scalar .uint32⟩,
        ⟨"change_display_resolution", 36, .message .displayResolution⟩,
        ⟨"message_query", 37, .message .messageQuery⟩,
        ⟨"follow_current_display", 38, .scalar .int32⟩]]
  | .voiceCallRequest => [.plain "req_timestamp" 1 .int64, .plain "is_connect" 2 .bool]
  | .voiceCallResponse => [
      .plain "accepted" 1 .bool, .plain "req_timestamp" 2 .int64,
      .plain "ack_timestamp" 3 .int64]
  | .screenshotRequest => [.plain "display" 1 .int32, .plain "sid" 2 .string]
  | .screenshotResponse => [
      .plain "sid" 1 .string, .plain "msg" 2 .string, .plain "data" 3 .bytes]
  | .openTerminal => [
      .plain "terminal_id" 1 .int32, .plain "rows" 2 .uint32, .plain "cols" 3 .uint32]
  | .resizeTerminal => [
      .plain "terminal_id" 1 .int32, .plain "rows" 2 .uint32, .plain "cols" 3 .uint32]
  | .terminalData => [
      .plain "terminal_id" 1 .int32, .plain "data" 2 .bytes, .plain "compressed" 3 .bool]
  | .closeTerminal => [.plain "terminal_id" 1 .int32]
  | .terminalAction => [
      .oneof "union" [⟨"open", 1, .message .openTerminal⟩, ⟨"data", 2, .message .terminalData⟩,
        ⟨"resize", 3, .message .resizeTerminal⟩, ⟨"close", 4, .message .closeTerminal⟩]]
  | .terminalOpened => [
      .plain "terminal_id" 1 .int32, .plain "success" 2 .bool, .plain "message" 3 .string,
      .plain "pid" 4 .uint32, .plain "service_id" 5 .string,
      .packed "persistent_sessions" 6 .int32 rfl, .plain "replay_terminal_output" 7 .bool]
  | .terminalClosed => [.plain "terminal_id" 1 .int32, .plain "exit_code" 2 .int32]
  | .terminalError => [.plain "terminal_id" 1 .int32, .plain "message" 2 .string]
  | .terminalResponse => [
      .oneof "union" [⟨"opened", 1, .message .terminalOpened⟩,
        ⟨"data", 2, .message .terminalData⟩, ⟨"closed", 3, .message .terminalClosed⟩,
        ⟨"error", 4, .message .terminalError⟩]]
  | .message => [
      .oneof "union" [⟨"signed_id", 3, .message .signedId⟩,
        ⟨"public_key", 4, .message .publicKey⟩, ⟨"test_delay", 5, .message .testDelay⟩,
        ⟨"video_frame", 6, .message .videoFrame⟩, ⟨"login_request", 7, .message .loginRequest⟩,
        ⟨"login_response", 8, .message .loginResponse⟩, ⟨"hash", 9, .message .hash⟩,
        ⟨"mouse_event", 10, .message .mouseEvent⟩, ⟨"audio_frame", 11, .message .audioFrame⟩,
        ⟨"cursor_data", 12, .message .cursorData⟩,
        ⟨"cursor_position", 13, .message .cursorPosition⟩, ⟨"cursor_id", 14, .scalar .uint64⟩,
        ⟨"key_event", 15, .message .keyEvent⟩, ⟨"clipboard", 16, .message .clipboard⟩,
        ⟨"file_action", 17, .message .fileAction⟩, ⟨"file_response", 18, .message .fileResponse⟩,
        ⟨"misc", 19, .message .misc⟩, ⟨"cliprdr", 20, .message .cliprdr⟩,
        ⟨"message_box", 21, .message .messageBox⟩,
        ⟨"switch_sides_response", 22, .message .switchSidesResponse⟩,
        ⟨"voice_call_request", 23, .message .voiceCallRequest⟩,
        ⟨"voice_call_response", 24, .message .voiceCallResponse⟩,
        ⟨"peer_info", 25, .message .peerInfo⟩,
        ⟨"pointer_device_event", 26, .message .pointerDeviceEvent⟩,
        ⟨"auth_2fa", 27, .message .auth2FA⟩, ⟨"multi_clipboards", 28, .message .multiClipboards⟩,
        ⟨"screenshot_request", 29, .message .screenshotRequest⟩,
        ⟨"screenshot_response", 30, .message .screenshotResponse⟩,
        ⟨"terminal_action", 31, .message .terminalAction⟩,
        ⟨"terminal_response", 32, .message .terminalResponse⟩]]

/-- How deep the messages inside a message go. -/
def MessageType.rank : MessageType → Nat
  | .message => 5
  | .switchSidesResponse => 4
  | .loginRequest | .loginResponse | .fileResponse | .misc => 3
  | .videoFrame | .peerInfo | .pointerDeviceEvent | .readEmptyDirsResponse | .fileAction
  | .cliprdr | .switchDisplay | .optionMessage => 2
  | .encodedVideoFrames | .displayInfo | .supportedEncoding | .touchEvent | .multiClipboards
  | .fileDirectory | .fileTransferReceiveRequest | .cliprdrServerFormatList | .cliprdrFiles
  | .displayResolution | .supportedResolutions | .supportedDecoding | .elevationRequest
  | .windowsSessions | .terminalAction | .terminalResponse => 1
  | _ => 0

theorem MessageType.distinct (m : MessageType) : (m.slots.flatMap Slot.numbers).Nodup := by
  cases m <;> decide

theorem MessageType.smaller (m : MessageType) :
    ∀ inner ∈ m.slots.flatMap Slot.messages, inner.rank < m.rank := by
  cases m <;> decide

/-- `message.ts`. -/
def messages : Schema MessageType where
  slots := MessageType.slots
  rank := MessageType.rank
  distinct := MessageType.distinct
  smaller := MessageType.smaller

inductive RendezvousType
  | registerPeer
  | registerPeerResponse
  | punchHoleRequest
  | controlPermissions
  | controlledContext
  | punchHole
  | testNatRequest
  | testNatResponse
  | punchHoleSent
  | registerPk
  | registerPkResponse
  | punchHoleResponse
  | configUpdate
  | requestRelay
  | relayResponse
  | softwareUpdate
  | fetchLocalAddr
  | localAddr
  | peerDiscovery
  | onlineRequest
  | onlineResponse
  | keyExchange
  | healthCheck
  | headerEntry
  | httpProxyRequest
  | httpProxyResponse
  | rendezvousMessage
  deriving DecidableEq

/-- The slots of a message, in the order in which its writer goes through them. -/
def RendezvousType.slots : RendezvousType → List (Slot RendezvousType)
  | .registerPeer => [.plain "id" 1 .string, .plain "serial" 2 .int32]
  | .registerPeerResponse => [.plain "request_pk" 2 .bool]
  | .punchHoleRequest => [
      .plain "id" 1 .string, .plain "nat_type" 2 .int32, .plain "licence_key" 3 .string,
      .plain "conn_type" 4 .int32, .plain "token" 5 .string, .plain "version" 6 .string,
      .plain "udp_port" 7 .int32, .plain "force_relay" 8 .bool, .plain "upnp_port" 9 .int32,
      .plain "socket_addr_v6" 10 .bytes, .plain "switch_code" 11 .string]
  | .controlPermissions => [.plain "permissions" 1 .uint64]
  | .controlledContext => [.plain "conn_audit_ref" 1 .string]
  | .punchHole => [
      .plain "socket_addr" 1 .bytes, .plain "relay_server" 2 .string, .plain "nat_type" 3 .int32,
      .plain "udp_port" 4 .int32, .plain "force_relay" 5 .bool, .plain "upnp_port" 6 .int32,
      .plain "socket_addr_v6" 7 .bytes, .message "control_permissions" 8 .controlPermissions,
      .message "controlled_context" 9 .controlledContext]
  | .testNatRequest => [.plain "serial" 1 .int32]
  | .testNatResponse => [.plain "port" 1 .int32, .message "cu" 2 .configUpdate]
  | .punchHoleSent => [
      .plain "socket_addr" 1 .bytes, .plain "id" 2 .string, .plain "relay_server" 3 .string,
      .plain "nat_type" 4 .int32, .plain "version" 5 .string, .plain "upnp_port" 6 .int32,
      .plain "socket_addr_v6" 7 .bytes]
  | .registerPk => [
      .plain "id" 1 .string, .plain "uuid" 2 .bytes, .plain "pk" 3 .bytes,
      .plain "old_id" 4 .string, .plain "no_register_device" 5 .bool]
  | .registerPkResponse => [.plain "result" 1 .int32, .plain "keep_alive" 2 .int32]
  | .punchHoleResponse => [
      .plain "socket_addr" 1 .bytes, .plain "pk" 2 .bytes, .plain "failure" 3 .int32,
      .plain "relay_server" 4 .string,
      .oneof "union" [⟨"nat_type", 5, .scalar .int32⟩, ⟨"is_local", 6, .scalar .bool⟩],
      .plain "other_failure" 7 .string, .plain "feedback" 8 .int32, .plain "is_udp" 9 .bool,
      .plain "upnp_port" 10 .int32, .plain "socket_addr_v6" 11 .bytes]
  | .configUpdate => [
      .plain "serial" 1 .int32, .repeated "rendezvous_servers" 2 (.scalar .string)]
  | .requestRelay => [
      .plain "id" 1 .string, .plain "uuid" 2 .string, .plain "socket_addr" 3 .bytes,
      .plain "relay_server" 4 .string, .plain "secure" 5 .bool, .plain "licence_key" 6 .string,
      .plain "conn_type" 7 .int32, .plain "token" 8 .string,
      .message "control_permissions" 9 .controlPermissions,
      .message "controlled_context" 10 .controlledContext, .plain "switch_code" 11 .string]
  | .relayResponse => [
      .plain "socket_addr" 1 .bytes, .plain "uuid" 2 .string, .plain "relay_server" 3 .string,
      .oneof "union" [⟨"id", 4, .scalar .string⟩, ⟨"pk", 5, .scalar .bytes⟩],
      .plain "refuse_reason" 6 .string, .plain "version" 7 .string, .plain "feedback" 9 .int32,
      .plain "socket_addr_v6" 10 .bytes, .plain "upnp_port" 11 .int32]
  | .softwareUpdate => [.plain "url" 1 .string]
  | .fetchLocalAddr => [
      .plain "socket_addr" 1 .bytes, .plain "relay_server" 2 .string,
      .plain "socket_addr_v6" 3 .bytes, .message "control_permissions" 4 .controlPermissions,
      .message "controlled_context" 5 .controlledContext]
  | .localAddr => [
      .plain "socket_addr" 1 .bytes, .plain "local_addr" 2 .bytes,
      .plain "relay_server" 3 .string, .plain "id" 4 .string, .plain "version" 5 .string,
      .plain "socket_addr_v6" 6 .bytes]
  | .peerDiscovery => [
      .plain "cmd" 1 .string, .plain "mac" 2 .string, .plain "id" 3 .string,
      .plain "username" 4 .string, .plain "hostname" 5 .string, .plain "platform" 6 .string,
      .plain "misc" 7 .string]
  | .onlineRequest => [.plain "id" 1 .string, .repeated "peers" 2 (.scalar .string)]
  | .onlineResponse => [.plain "states" 1 .bytes]
  | .keyExchange => [.repeated "keys" 1 (.scalar .bytes)]
  | .healthCheck => [.plain "token" 1 .string]
  | .headerEntry => [.plain "name" 1 .string, .plain "value" 2 .string]
  | .httpProxyRequest => [
      .plain "method" 1 .string, .plain "path" 2 .string,
      .repeated "headers" 3 (.message .headerEntry), .plain "body" 4 .bytes]
  | .httpProxyResponse => [
      .plain "status" 1 .int32, .repeated "headers" 2 (.message .headerEntry),
      .plain "body" 3 .bytes, .plain "error" 4 .string]
  | .rendezvousMessage => [
      .oneof "union" [⟨"register_peer", 6, .message .registerPeer⟩,
        ⟨"register_peer_response", 7, .message .registerPeerResponse⟩,
        ⟨"punch_hole_request", 8, .message .punchHoleRequest⟩,
        ⟨"punch_hole", 9, .message .punchHole⟩, ⟨"punch_hole_sent", 10, .message .punchHoleSent⟩,
        ⟨"punch_hole_response", 11, .message .punchHoleResponse⟩,
        ⟨"fetch_local_addr", 12, .message .fetchLocalAddr⟩,
        ⟨"local_addr", 13, .message .localAddr⟩,
        ⟨"configure_update", 14, .message .configUpdate⟩,
        ⟨"register_pk", 15, .message .registerPk⟩,
        ⟨"register_pk_response", 16, .message .registerPkResponse⟩,
        ⟨"software_update", 17, .message .softwareUpdate⟩,
        ⟨"request_relay", 18, .message .requestRelay⟩,
        ⟨"relay_response", 19, .message .relayResponse⟩,
        ⟨"test_nat_request", 20, .message .testNatRequest⟩,
        ⟨"test_nat_response", 21, .message .testNatResponse⟩,
        ⟨"peer_discovery", 22, .message .peerDiscovery⟩,
        ⟨"online_request", 23, .message .onlineRequest⟩,
        ⟨"online_response", 24, .message .onlineResponse⟩,
        ⟨"key_exchange", 25, .message .keyExchange⟩, ⟨"hc", 26, .message .healthCheck⟩,
        ⟨"http_proxy_request", 27, .message .httpProxyRequest⟩,
        ⟨"http_proxy_response", 28, .message .httpProxyResponse⟩]]

/-- How deep the messages inside a message go. -/
def RendezvousType.rank : RendezvousType → Nat
  | .rendezvousMessage => 2
  | .punchHole | .testNatResponse | .requestRelay | .fetchLocalAddr | .httpProxyRequest
  | .httpProxyResponse => 1
  | _ => 0

theorem RendezvousType.distinct (m : RendezvousType) : (m.slots.flatMap Slot.numbers).Nodup := by
  cases m <;> decide

theorem RendezvousType.smaller (m : RendezvousType) :
    ∀ inner ∈ m.slots.flatMap Slot.messages, inner.rank < m.rank := by
  cases m <;> decide

/-- `rendezvous.ts`. -/
def rendezvous : Schema RendezvousType where
  slots := RendezvousType.slots
  rank := RendezvousType.rank
  distinct := RendezvousType.distinct
  smaller := RendezvousType.smaller

end WebClient
end CortenDesk
